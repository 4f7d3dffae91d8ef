import Typescribe.Proofs.Generation.Emission
import Typescribe.Proofs.Store

/-!
# Patching

Recorded references are seen as a relation between declaring and referenced types. Planning gives
each file the replacements for all references recorded under its types, and fails exactly if a
file is missing or a type has no replacement. Patching a memory store applies to each file the
replacements planned for it and adds no file.
-/

namespace Typescribe

namespace References

variable {references : References} {declaring referenced : TypeName}

/-- A reference between the two types is recorded. -/
def Records (references : References) (declaring referenced : TypeName) : Prop :=
  ∃ entry ∈ references.unresolved, entry.1 = declaring ∧ referenced ∈ entry.2

theorem exists_insertEntry_iff {source target : TypeName}
    {table : List (TypeName × List TypeName)} :
    (∃ entry ∈ insertEntry source target table, entry.1 = declaring ∧ referenced ∈ entry.2) ↔
      declaring = source ∧ referenced = target ∨
        ∃ entry ∈ table, entry.1 = declaring ∧ referenced ∈ entry.2 := by
  induction table with
  | nil => simp [insertEntry, eq_comm]
  | cons entry rest ih =>
    rw [insertEntry]
    split
    next same =>
      have extended : (referenced ∈ if target ∈ entry.2 then entry.2 else entry.2 ++ [target]) ↔
          referenced = target ∨ referenced ∈ entry.2 := by
        split
        next present => exact ⟨.inr, fun either => either.elim (fun equal => equal ▸ present) id⟩
        next => simp [or_comm]
      simp only [List.mem_cons, exists_eq_or_imp, extended]
      constructor
      · rintro (⟨first, isTarget | member⟩ | later)
        · exact .inl ⟨first.symm.trans same, isTarget⟩
        · exact .inr (.inl ⟨first, member⟩)
        · exact .inr (.inr later)
      · rintro (⟨first, isTarget⟩ | ⟨first, member⟩ | later)
        · exact .inl ⟨same.trans first.symm, .inl isTarget⟩
        · exact .inl ⟨first, .inr member⟩
        · exact .inr later
    next =>
      simp only [List.mem_cons, exists_eq_or_imp, ih]
      exact or_left_comm

/-- Recording references adds exactly these. -/
theorem records_insertAll {pairs : List (TypeName × TypeName)} :
    (references.insertAll pairs).Records declaring referenced ↔
      (declaring, referenced) ∈ pairs ∨ references.Records declaring referenced := by
  induction pairs generalizing references with
  | nil => simp [insertAll]
  | cons pair rest ih =>
    change ((references.insert pair.1 pair.2).insertAll rest).Records _ _ ↔ _
    rw [ih, Records, insert, exists_insertEntry_iff, List.mem_cons, Prod.ext_iff]
    exact or_left_comm.trans or_assoc.symm

@[simp] theorem modules_insertAll {pairs : List (TypeName × TypeName)} :
    (references.insertAll pairs).modules = references.modules := by
  induction pairs generalizing references with
  | nil => rfl
  | cons pair rest ih => exact ih

theorem mem_modules_of_module? {file : Path} (located : references.module? declaring = some file) :
    (declaring.root, file) ∈ references.modules := by
  obtain ⟨before, after, split, -⟩ := List.lookup_eq_some_iff.mp located
  rw [split]
  exact List.mem_append_right _ List.mem_cons_self

/-- The pending references are the recorded ones to types that are not known. -/
theorem mem_pending_iff {known : KnownTypes} :
    (declaring, referenced) ∈ references.pending known ↔
      references.Records declaring referenced ∧ known.contains referenced = false := by
  rw [pending, List.mem_filter, List.mem_flatMap, Bool.not_eq_true']
  refine and_congr_left fun _ => exists_congr fun entry => and_congr_right fun _ => ?_
  rw [List.mem_map]
  constructor
  · rintro ⟨type, member, same⟩
    obtain ⟨first, rfl⟩ := Prod.mk.inj same
    exact ⟨first, member⟩
  · rintro ⟨first, member⟩
    exact ⟨referenced, member, by rw [first]⟩

/-- The replacements for one declaring type can be given exactly if each of them can. -/
theorem exists_replacementsFor_iff {types : List TypeName} {newTypes : List Declaration} :
    (∃ replacements, replacementsFor types newTypes = .ok replacements) ↔
      ∀ declaration ∈ newTypes, declaration.type ∈ types →
        ∃ text, Placeholder.replacement declaration = .ok text := by
  rw [replacementsFor, exists_mapM_eq_ok]
  simp only [List.mem_filter, decide_eq_true_eq, and_imp]
  refine forall_congr' fun declaration => imp_congr_right fun _ => imp_congr_right fun _ => ?_
  cases Placeholder.replacement declaration <;> simp

theorem mem_replacementsFor_iff {types : List TypeName} {newTypes : List Declaration}
    {replacements : List (TypeName × String)}
    (done : replacementsFor types newTypes = .ok replacements) {entry : TypeName × String} :
    entry ∈ replacements ↔ ∃ declaration ∈ newTypes, declaration.type ∈ types ∧
      Placeholder.replacement declaration = .ok entry.2 ∧ declaration.type = entry.1 := by
  constructor
  · intro member
    obtain ⟨declaration, listed, given⟩ := exists_of_mem_mapM done member
    obtain ⟨listed, referenced⟩ := List.mem_filter.mp listed
    split at given
    next text replaced =>
      obtain rfl := Except.ok.inj given
      exact ⟨declaration, listed, of_decide_eq_true referenced, replaced, rfl⟩
    next => cases given
  · rintro ⟨declaration, listed, referenced, replaced, same⟩
    obtain ⟨result, member, given⟩ := exists_mem_of_mapM done
      (List.mem_filter.mpr ⟨listed, decide_eq_true referenced⟩)
    rw [replaced, same] at given
    obtain rfl := Except.ok.inj given
    exact member

end References

namespace Patch

/-- All replacements that patches make in a file. -/
def replacementsAt (path : Path) (patches : List Patch) : List (TypeName × String) :=
  (patches.filter fun patch => patch.path.same path).flatMap Patch.replacements

theorem replacementsAt_cons {path : Path} {patch : Patch} {rest : List Patch} :
    replacementsAt path (patch :: rest) =
      (if patch.path.same path then patch.replacements else []) ++ replacementsAt path rest := by
  rw [replacementsAt, List.filter_cons]
  split <;> rfl

theorem replacementsAt_append {path : Path} {first second : List Patch} :
    replacementsAt path (first ++ second) =
      replacementsAt path first ++ replacementsAt path second := by
  simp only [replacementsAt, List.filter_append, List.flatMap_append]

/-- Planning more replacements for a file adds exactly these. -/
theorem mem_replacementsAt_extend {path file : Path} {replacements : List (TypeName × String)}
    {patches : List Patch} {entry : TypeName × String} :
    entry ∈ replacementsAt path (extend file replacements patches) ↔
      entry ∈ replacementsAt path patches ∨ file.same path = true ∧ entry ∈ replacements := by
  induction patches with
  | nil =>
    rw [extend, replacementsAt_cons]
    cases file.same path <;> simp [replacementsAt]
  | cons patch rest ih =>
    rw [extend]
    split
    next same =>
      rw [replacementsAt_cons, replacementsAt_cons, Path.same_congr_left same]
      cases file.same path with
      | false => simp
      | true =>
        simp only [if_true, List.mem_append, true_and]
        exact or_right_comm
    next =>
      rw [replacementsAt_cons, replacementsAt_cons, List.mem_append, List.mem_append, ih, or_assoc]

theorem path_of_mem_extend {file : Path} {replacements : List (TypeName × String)}
    {patches : List Patch} {patch : Patch} (member : patch ∈ extend file replacements patches) :
    patch.path = file ∨ ∃ earlier ∈ patches, patch.path = earlier.path := by
  induction patches with
  | nil => exact .inl (congrArg Patch.path (List.mem_singleton.mp member))
  | cons first rest ih =>
    rw [extend] at member
    split at member
    · rcases List.mem_cons.mp member with rfl | member
      · exact .inr ⟨first, List.mem_cons_self, rfl⟩
      · exact .inr ⟨patch, List.mem_cons_of_mem _ member, rfl⟩
    · rcases List.mem_cons.mp member with rfl | member
      · exact .inr ⟨patch, List.mem_cons_self, rfl⟩
      · refine (ih member).imp_right ?_
        rintro ⟨earlier, listed, same⟩
        exact ⟨earlier, List.mem_cons_of_mem _ listed, same⟩

/-- A file is entered among the patched ones when it is first met. -/
theorem map_path_extend (file : Path) (replacements : List (TypeName × String))
    (patches : List Patch) :
    (extend file replacements patches).map Patch.path =
      Path.enter file (patches.map Patch.path) := by
  induction patches with
  | nil => rfl
  | cons patch rest ih =>
    rw [extend, List.map_cons, Path.enter]
    split
    · rfl
    · rw [List.map_cons, ih]

/-- A file that no patch is for has no replacements. -/
theorem replacementsAt_eq_nil {path : Path} {patches : List Patch}
    (apart : ∀ patch ∈ patches, patch.path.same path = false) :
    replacementsAt path patches = [] := by
  rw [replacementsAt, List.filter_eq_nil_iff.mpr]
  · rfl
  · intro patch member
    rw [apart patch member]
    exact Bool.false_ne_true

/-- Where each patch is for a file of its own, the replacements in a file are those of its patch. -/
theorem replacementsAt_eq {path : Path} {patches : List Patch} {patch : Patch}
    (apart : (patches.map Patch.path).Pairwise fun first second => first.same second = false)
    (member : patch ∈ patches) (same : patch.path.same path = true) :
    replacementsAt path patches = patch.replacements := by
  induction patches with
  | nil => exact absurd member List.not_mem_nil
  | cons first rest ih =>
    rw [List.map_cons, List.pairwise_cons, List.forall_mem_map] at apart
    rw [replacementsAt_cons]
    rcases List.mem_cons.mp member with rfl | later
    · have none : replacementsAt path rest = [] := by
        refine replacementsAt_eq_nil fun other listed => ?_
        rw [Path.same_comm, ← Path.same_congr_left same]
        exact apart.1 other listed
      rw [if_pos same, none, List.append_nil]
    · have different : first.path.same path = false := by
        rw [Path.same_comm, ← Path.same_congr_left same, Path.same_comm]
        exact apart.1 patch later
      rw [different, if_neg Bool.false_ne_true, ih apart.2 later, List.nil_append]

@[simp] theorem apply_nil (path : Path) : apply ⟨path, []⟩ = id := by
  funext text
  exact String.ofList_toList

/-- A patch changes nothing in a text without tokens. -/
theorem apply_of_settled (patch : Patch) {text : String}
    (settled : Placeholder.Settled text.toList) : patch.apply text = text := by
  obtain ⟨path, replacements⟩ := patch
  induction replacements with
  | nil => rw [apply_nil, id]
  | cons entry rest ih =>
    rw [apply, List.foldl_cons, settled.replaceAll_eq]
    exact ih

/-- Replacements are made one after the other. -/
theorem apply_append (path first second : Path) (earlier later : List (TypeName × String))
    (text : String) :
    apply ⟨path, earlier ++ later⟩ text = apply ⟨second, later⟩ (apply ⟨first, earlier⟩ text) := by
  simp only [apply, List.foldl_append, String.toList_ofList]

end Patch

namespace References

variable {references : References} {newTypes : List Declaration}

/-- Planning succeeds exactly if every reference to a new type has a file and a replacement. -/
theorem exists_planFrom_iff {planned : List Patch} {table : List (TypeName × List TypeName)} :
    (∃ patches, references.planFrom newTypes planned table = .ok patches) ↔
      ∀ entry ∈ table, ∀ declaration ∈ newTypes, declaration.type ∈ entry.2 →
        (∃ file, references.module? entry.1 = some file) ∧
          ∃ text, Placeholder.replacement declaration = .ok text := by
  induction table generalizing planned with
  | nil => simp [planFrom]
  | cons entry rest ih =>
    rw [planFrom, List.forall_mem_cons]
    split
    next concerned =>
      obtain ⟨declaration, listed, referenced⟩ := List.any_eq_true.mp concerned
      replace referenced := of_decide_eq_true referenced
      cases located : references.module? entry.1 with
      | none =>
        simp only [reduceCtorEq, exists_false, false_and, false_iff, not_and]
        exact fun all => absurd (all declaration listed referenced) id
      | some file =>
        cases given : replacementsFor entry.2 newTypes with
        | error reason =>
          have missing : ¬ ∃ replacements, replacementsFor entry.2 newTypes = .ok replacements := by
            simp [given]
          rw [exists_replacementsFor_iff] at missing
          simp only [reduceCtorEq, exists_false, false_iff, not_and]
          exact fun all => absurd (fun other member isType => (all other member isType).2) missing
        | ok replacements =>
          have each := exists_replacementsFor_iff.mp ⟨replacements, given⟩
          rw [ih]
          exact ⟨fun later => ⟨fun other member isType => ⟨⟨file, rfl⟩, each other member isType⟩,
            later⟩, And.right⟩
    next unconcerned =>
      rw [ih]
      refine ⟨fun later => ⟨fun declaration listed referenced => ?_, later⟩, And.right⟩
      exact absurd (List.any_eq_true.mpr ⟨declaration, listed, decide_eq_true referenced⟩)
        unconcerned

/-- What is planned for a file: the replacements for all references recorded under its types. -/
theorem mem_replacementsAt_planFrom {planned patches : List Patch}
    {table : List (TypeName × List TypeName)}
    (done : references.planFrom newTypes planned table = .ok patches) {path : Path}
    {item : TypeName × String} :
    item ∈ Patch.replacementsAt path patches ↔
      item ∈ Patch.replacementsAt path planned ∨
        ∃ entry ∈ table, (∃ file, references.module? entry.1 = some file ∧ file.same path = true) ∧
          ∃ declaration ∈ newTypes, declaration.type ∈ entry.2 ∧
            Placeholder.replacement declaration = .ok item.2 ∧ declaration.type = item.1 := by
  induction table generalizing planned with
  | nil =>
    rw [planFrom, Except.ok.injEq] at done
    simp [done]
  | cons entry rest ih =>
    simp only [List.mem_cons, exists_eq_or_imp]
    rw [planFrom] at done
    split at done
    next =>
      split at done
      next => cases done
      next file located =>
        split at done
        next => cases done
        next replacements given =>
          rw [ih done, Patch.mem_replacementsAt_extend, mem_replacementsFor_iff given, located]
          simp only [Option.some.injEq, exists_eq_left', or_assoc]
    next unconcerned =>
      rw [ih done]
      refine or_congr_right (or_iff_right ?_).symm
      rintro ⟨-, declaration, listed, referenced, -⟩
      exact unconcerned
        (List.any_eq_true.mpr ⟨declaration, listed, decide_eq_true referenced⟩)

/-- Files are patched only where a declaring type was generated. -/
theorem path_of_mem_planFrom {planned patches : List Patch}
    {table : List (TypeName × List TypeName)}
    (done : references.planFrom newTypes planned table = .ok patches) {patch : Patch}
    (member : patch ∈ patches) :
    (∃ earlier ∈ planned, patch.path = earlier.path) ∨
      ∃ entry ∈ table, (∃ type, type ∈ entry.2) ∧
        references.module? entry.1 = some patch.path := by
  induction table generalizing planned with
  | nil =>
    rw [planFrom, Except.ok.injEq] at done
    exact .inl ⟨patch, done ▸ member, rfl⟩
  | cons entry rest ih =>
    simp only [List.mem_cons, exists_eq_or_imp]
    rw [planFrom] at done
    split at done
    next concerned =>
      obtain ⟨declaration, -, referenced⟩ := List.any_eq_true.mp concerned
      split at done
      next => cases done
      next file located =>
        split at done
        next => cases done
        next =>
          rcases ih done with ⟨earlier, listed, same⟩ | later
          · rcases Patch.path_of_mem_extend listed with here | before
            · refine .inr (.inl ⟨⟨_, of_decide_eq_true referenced⟩, ?_⟩)
              rw [located, same, here]
            · exact .inl (before.imp fun other both => ⟨both.1, same.trans both.2⟩)
          · exact .inr (.inr later)
    next => exact (ih done).imp_right .inr

theorem replacementsFor_blamesSchema (types : List TypeName) :
    BlamesSchema (replacementsFor types newTypes) := by
  refine BlamesSchema.mapM (fun declaration => ?_) _
  split
  · exact .ok _
  next reason unsupported =>
    exact .error (BlamesSchema.replacement declaration reason unsupported)

/-- Planning fails for a fault of the schema, or because a declaring type has no file. -/
theorem error_of_planFrom {planned : List Patch} {table : List (TypeName × List TypeName)}
    {reason : GenerationError}
    (failed : references.planFrom newTypes planned table = .error reason) :
    reason.isSchemaFault = true ∨
      ∃ entry ∈ table, (∃ type, type ∈ entry.2) ∧ references.module? entry.1 = none ∧
        reason = .missingOutputPath entry.1 := by
  induction table generalizing planned with
  | nil => cases failed
  | cons entry rest ih =>
    simp only [List.mem_cons, exists_eq_or_imp]
    rw [planFrom] at failed
    split at failed
    next concerned =>
      obtain ⟨declaration, -, referenced⟩ := List.any_eq_true.mp concerned
      split at failed
      next missing =>
        refine .inr (.inl ⟨⟨_, of_decide_eq_true referenced⟩, missing, ?_⟩)
        exact (Except.error.inj failed).symm
      next =>
        split at failed
        next fault given =>
          obtain rfl := Except.error.inj failed
          exact .inl (replacementsFor_blamesSchema entry.2 fault given)
        next => exact (ih failed).imp_right .inr
    next => exact (ih failed).imp_right .inr

/-- A plan exists exactly if every recorded reference to a new type has a file and a
replacement. -/
theorem exists_plan_iff :
    (∃ patches, references.plan newTypes = .ok patches) ↔
      ∀ declaring, ∀ declaration ∈ newTypes, references.Records declaring declaration.type →
        (∃ file, references.module? declaring = some file) ∧
          ∃ text, Placeholder.replacement declaration = .ok text := by
  rw [plan, exists_planFrom_iff]
  constructor
  · rintro all declaring declaration isNew ⟨entry, listed, rfl, referenced⟩
    exact all entry listed declaration isNew referenced
  · intro all entry listed declaration isNew referenced
    exact all entry.1 declaration isNew ⟨entry, listed, rfl, referenced⟩

theorem mem_replacementsAt_plan {patches : List Patch}
    (done : references.plan newTypes = .ok patches) {path : Path} {item : TypeName × String} :
    item ∈ Patch.replacementsAt path patches ↔
      ∃ declaring, (∃ file, references.module? declaring = some file ∧ file.same path = true) ∧
        ∃ declaration ∈ newTypes, references.Records declaring declaration.type ∧
          Placeholder.replacement declaration = .ok item.2 ∧ declaration.type = item.1 := by
  rw [mem_replacementsAt_planFrom done]
  have none : item ∉ Patch.replacementsAt path [] := List.not_mem_nil
  rw [or_iff_right none]
  constructor
  · rintro ⟨entry, listed, file, declaration, isNew, referenced, given⟩
    exact ⟨entry.1, file, declaration, isNew, ⟨entry, listed, rfl, referenced⟩, given⟩
  · rintro ⟨declaring, file, declaration, isNew, ⟨entry, listed, rfl, referenced⟩, given⟩
    exact ⟨entry, listed, file, declaration, isNew, referenced, given⟩

theorem path_of_mem_plan {patches : List Patch} (done : references.plan newTypes = .ok patches)
    {patch : Patch} (member : patch ∈ patches) :
    ∃ declaring referenced, references.Records declaring referenced ∧
      references.module? declaring = some patch.path := by
  rcases path_of_mem_planFrom done member with
    ⟨earlier, impossible, -⟩ | ⟨entry, listed, type, file⟩
  · exact absurd impossible List.not_mem_nil
  · obtain ⟨referenced, isType⟩ := type
    exact ⟨entry.1, referenced, ⟨entry, listed, rfl, isType⟩, file⟩

/-- The files in which newly known types are waited for, in the order in which the pass patches
them. -/
def schedule (references : References) (newTypes : List Declaration) : List Path :=
  ((references.unresolved.filter fun entry =>
      newTypes.any fun declaration => declaration.type ∈ entry.2).filterMap
    fun entry => references.module? entry.1).foldl (fun files file => Path.enter file files) []

/-- No file is scheduled twice, however it is spelled. -/
theorem pairwise_schedule :
    (references.schedule newTypes).Pairwise fun first second => first.same second = false := by
  rw [schedule]
  exact List.foldlRecOn _ _ .nil fun files apart file _ => Path.pairwise_enter apart file

theorem map_path_planFrom {planned patches : List Patch} {table : List (TypeName × List TypeName)}
    (done : references.planFrom newTypes planned table = .ok patches) :
    patches.map Patch.path =
      ((table.filter fun entry =>
          newTypes.any fun declaration => declaration.type ∈ entry.2).filterMap
        fun entry => references.module? entry.1).foldl (fun files file => Path.enter file files)
          (planned.map Patch.path) := by
  induction table generalizing planned with
  | nil =>
    rw [planFrom, Except.ok.injEq] at done
    rw [done]
    rfl
  | cons entry rest ih =>
    rw [planFrom] at done
    split at done
    next concerned =>
      rw [List.filter_cons, if_pos concerned]
      split at done
      next => cases done
      next file located =>
        split at done
        next => cases done
        next =>
          rw [ih done, Patch.map_path_extend, List.filterMap_cons, located]
          rfl
    next unconcerned => rw [List.filter_cons, if_neg unconcerned, ih done]

/-- A plan has a patch for each scheduled file, in this order. -/
theorem map_path_plan {patches : List Patch} (done : references.plan newTypes = .ok patches) :
    patches.map Patch.path = references.schedule newTypes :=
  map_path_planFrom done

theorem pairwise_plan {patches : List Patch} (done : references.plan newTypes = .ok patches) :
    (patches.map Patch.path).Pairwise fun first second => first.same second = false :=
  map_path_plan done ▸ pairwise_schedule

/-- Where every declaring type has a file, planning fails for faults of the schema alone. -/
theorem plan_blamesSchema
    (located : ∀ declaring referenced, references.Records declaring referenced →
      ∃ file, references.module? declaring = some file) :
    BlamesSchema (references.plan newTypes) := by
  intro reason failed
  rcases error_of_planFrom failed with schemaFault | ⟨entry, listed, ⟨type, isType⟩, missing, -⟩
  · exact schemaFault
  · obtain ⟨file, found⟩ := located entry.1 type ⟨entry, listed, rfl, isType⟩
    rw [missing] at found
    cases found

/-- Patching a file that is there leaves the patched text and tells whether it is another one. -/
theorem applyPatch_eq {store : MemoryStore} {patch : Patch} {text : String}
    (held : store.get? patch.path = some text) :
    applyPatch store patch =
      (.ok (if patch.apply text = text then .unchanged else .written),
        store.put patch.path (patch.apply text)) := by
  have readable : Store.read store patch.path = .ok text := by
    simp only [Store.read, held]
  rw [applyPatch, readable]
  dsimp only
  rw [MemoryStore.writeIfChanged_eq, held]
  simp only [Option.some.injEq, eq_comm]

theorem applyPatches_cons {store after : MemoryStore} {patch : Patch} {rest : List Patch}
    {text : String} {changed : List Path} (held : store.get? patch.path = some text)
    (later : applyPatches (store.put patch.path (patch.apply text)) rest = (.ok changed, after)) :
    applyPatches store (patch :: rest) =
      (.ok (if patch.apply text = text then changed else patch.path :: changed), after) := by
  rw [applyPatches, applyPatch_eq held]
  dsimp only
  rw [later]
  by_cases same : patch.apply text = text <;> simp [same]

/-- Patching a memory store applies to each file what is planned for it, and adds no file. -/
theorem applyPatches_eq {store : MemoryStore} {patches : List Patch}
    (held : ∀ patch ∈ patches, (store.get? patch.path).isSome = true) :
    ∃ changed after, applyPatches store patches = (.ok changed, after) ∧
      (∀ path ∈ changed, (store.get? path).isSome = true) ∧ after.paths = store.paths ∧
      ∀ path, after.get? path =
        (store.get? path).map (Patch.apply ⟨path, Patch.replacementsAt path patches⟩) := by
  induction patches generalizing store with
  | nil =>
    refine ⟨[], store, rfl, fun _ member => absurd member List.not_mem_nil, rfl, fun path => ?_⟩
    rw [Patch.replacementsAt_eq_nil fun _ member => absurd member List.not_mem_nil]
    simp
  | cons patch rest ih =>
    obtain ⟨heldHere, heldLater⟩ := List.forall_mem_cons.mp held
    obtain ⟨text, here⟩ := Option.isSome_iff_exists.mp heldHere
    have heldThen : ∀ other ∈ rest,
        ((store.put patch.path (patch.apply text)).get? other.path).isSome = true :=
      fun other member => MemoryStore.isSome_get?_put (heldLater other member) _ _
    obtain ⟨changed, after, patched, changedHeld, paths, contents⟩ := ih heldThen
    have samePaths := MemoryStore.paths_put_of_isSome heldHere (patch.apply text)
    refine ⟨_, after, applyPatches_cons here patched, ?_, paths.trans samePaths, fun path => ?_⟩
    · have changedHere : ∀ path ∈ changed, (store.get? path).isSome = true := by
        intro path member
        rw [MemoryStore.get?_isSome_iff, ← samePaths, ← MemoryStore.get?_isSome_iff]
        exact changedHeld path member
      split
      · exact changedHere
      · exact List.forall_mem_cons.mpr ⟨heldHere, changedHere⟩
    · rw [contents, MemoryStore.get?_put, Patch.replacementsAt_cons]
      cases same : patch.path.same path with
      | false => rfl
      | true =>
        rw [← MemoryStore.get?_congr same, here, if_pos rfl, if_pos rfl, Option.map_some,
          Option.map_some, Patch.apply_append path patch.path path]

end References

end Typescribe
