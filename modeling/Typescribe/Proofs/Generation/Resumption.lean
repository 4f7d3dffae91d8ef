import Typescribe.Proofs.Generation.Substitution

/-!
# Failed passes

A pass that replaces placeholders can fail. If the schema is at fault or a file is not known, this
shows before anything is written. If the store is at fault, the files scheduled before the fault are
patched and all others are as they were; and once the store serves every request, another pass ends
with the texts that a single pass without faults would have left.
-/

namespace Typescribe

open Placeholder

/-- A store in which requests may fail or hide files, each path for itself. What it really holds
changes by writing alone, and a failed write leaves it as it is. -/
class FaultyStore (σ : Type) extends Store σ where
  /-- What the store really holds at a path. -/
  content : σ → Path → Option String
  content_congr : ∀ (store : σ) {path other : Path}, path.same other = true →
    content store path = content store other
  content_of_read : ∀ {store : σ} {path : Path} {text : String}, read store path = .ok text →
    content store path = some text
  content_of_written : ∀ {store after : σ} {path : Path} {text : String},
    write store path text = (.ok (), after) → ∀ other,
      content after other = if path.same other then some text else content store other
  content_of_failed : ∀ {store after : σ} {path : Path} {text : String} {fault : StoreFault},
    write store path text = (.error fault, after) → ∀ other,
      content after other = content store other

open FaultyStore

/-- A guarded store holds what is in its memory, whatever the guards let through. -/
instance : FaultyStore GuardedStore where
  content store path := store.inner.get? path
  content_congr _ _ _ same := MemoryStore.get?_congr same
  content_of_read := by
    intro store path text readable
    simp only [Store.read] at readable
    split at readable
    · cases readable
    · split at readable
      · cases readable
      · split at readable
        next found => rw [found, ← Except.ok.inj readable]
        next => cases readable
  content_of_written := by
    intro store after path text written other
    simp only [Store.write] at written
    split at written
    · cases written
    · rw [← (Prod.mk.inj written).2, MemoryStore.get?_put]
  content_of_failed := by
    intro store after path text fault failed other
    simp only [Store.write] at failed
    split at failed
    · rw [← (Prod.mk.inj failed).2]
    · cases failed

variable {σ : Type} [FaultyStore σ]

/-- From here on the store gives out whatever it holds and takes whatever is written. -/
def FaultFree (store : σ) : Prop :=
  ∃ steady : σ → Prop, steady store ∧ ∀ store, steady store →
    (∀ path text, content store path = some text → Store.read store path = .ok text) ∧
      ∀ path text, ∃ after, Store.write store path text = (.ok (), after) ∧ steady after

/-- Without guards, a guarded store serves every request. -/
theorem GuardedStore.faultFree (inner : MemoryStore) :
    FaultFree ({ inner := inner } : GuardedStore) := by
  refine ⟨fun store => store.guards = [], rfl, fun store free => ⟨fun path text held => ?_, ?_⟩⟩
  · have found : store.inner.get? path = some text := held
    simp [Store.read, GuardedStore.guarded, free, found]
  · intro path text
    exact ⟨{ store with inner := store.inner.put path text },
      by simp [Store.write, GuardedStore.guarded, free], free⟩

namespace FaultFree

variable {store after : σ} {path : Path} {text : String}

theorem read (faultFree : FaultFree store) (held : content store path = some text) :
    Store.read store path = .ok text := by
  obtain ⟨steady, here, serves⟩ := faultFree
  exact (serves store here).1 path text held

theorem write (faultFree : FaultFree store) (path : Path) (text : String) :
    ∃ after, Store.write store path text = (.ok (), after) ∧ FaultFree after := by
  obtain ⟨steady, here, serves⟩ := faultFree
  obtain ⟨after, written, later⟩ := (serves store here).2 path text
  exact ⟨after, written, steady, later, serves⟩

end FaultFree

section

variable {store after : σ} {path : Path} {text : String}

theorem overwrite_ok {outcome : WriteOutcome}
    (done : Store.overwrite store path text = (.ok outcome, after)) (other : Path) :
    content after other = if path.same other then some text else content store other := by
  rw [Store.overwrite] at done
  split at done
  next written =>
    obtain ⟨-, rfl⟩ := Prod.mk.inj done
    exact content_of_written written other
  next => cases (Prod.mk.inj done).1

theorem overwrite_error {fault : StoreFault}
    (failed : Store.overwrite store path text = (.error fault, after)) (other : Path) :
    content after other = content store other := by
  rw [Store.overwrite] at failed
  split at failed
  next => cases (Prod.mk.inj failed).1
  next notWritten =>
    obtain ⟨-, rfl⟩ := Prod.mk.inj failed
    exact content_of_failed notWritten other

/-- Writing a text leaves it at its path, also where it is there already. -/
theorem writeIfChanged_ok {outcome : WriteOutcome}
    (done : Store.writeIfChanged store path text = (.ok outcome, after)) (other : Path) :
    content after other = if path.same other then some text else content store other := by
  rw [Store.writeIfChanged] at done
  split at done
  · split at done
    next => cases (Prod.mk.inj done).1
    next current readable =>
      split at done
      next same =>
        obtain ⟨-, rfl⟩ := Prod.mk.inj done
        split
        next samePath => rw [← content_congr store samePath, content_of_read readable, same]
        next => rfl
      next => exact overwrite_ok done other
  · exact overwrite_ok done other

/-- A write that fails leaves everything as it is. -/
theorem writeIfChanged_error {fault : StoreFault}
    (failed : Store.writeIfChanged store path text = (.error fault, after)) (other : Path) :
    content after other = content store other := by
  rw [Store.writeIfChanged] at failed
  split at failed
  · split at failed
    next =>
      obtain ⟨-, rfl⟩ := Prod.mk.inj failed
      rfl
    next =>
      split at failed
      next => cases (Prod.mk.inj failed).1
      next => exact overwrite_error failed other
  · exact overwrite_error failed other

end

/-- The second store holds the texts of the first with the patches made. -/
def Patched (store : σ) (made : List Patch) (after : σ) : Prop :=
  ∀ path, content after path =
    (content store path).map (Patch.apply ⟨path, Patch.replacementsAt path made⟩)

namespace Patched

variable {store middle after : σ} {made more : List Patch}

theorem of_unchanged (unchanged : ∀ path, content after path = content store path) :
    Patched store [] after := by
  intro path
  rw [unchanged, Patch.replacementsAt_eq_nil fun _ member => absurd member List.not_mem_nil,
    Patch.apply_nil, Option.map_id, id]

theorem append (first : Patched store made middle) (later : Patched middle more after) :
    Patched store (made ++ more) after := by
  intro path
  rw [later, first, Option.map_map, Patch.replacementsAt_append]
  congr 1
  funext text
  exact (Patch.apply_append path path path _ _ text).symm

/-- Patching neither adds nor removes a file. -/
theorem isSome_eq (patched : Patched store made after) (path : Path) :
    (content after path).isSome = (content store path).isSome := by
  rw [patched, Option.isSome_map]

end Patched

/-- The file at which a pass failed. -/
def GenerationError.FailedAt (reason : GenerationError) (file : Path) : Prop :=
  ∃ fault, reason = .read file fault ∨ reason = .write file fault

namespace References

/-- A patch that fails leaves everything as it is. -/
theorem applyPatch_error {store after : σ} {patch : Patch} {reason : GenerationError}
    (failed : applyPatch store patch = (.error reason, after)) :
    reason.FailedAt patch.path ∧ Patched store [] after := by
  rw [applyPatch] at failed
  split at failed
  next fault unreadable =>
    obtain ⟨same, rfl⟩ := Prod.mk.inj failed
    exact ⟨⟨fault, .inl (Except.error.inj same).symm⟩, .of_unchanged fun _ => rfl⟩
  next text readable =>
    split at failed
    next fault _ notWritten =>
      obtain ⟨same, rfl⟩ := Prod.mk.inj failed
      refine ⟨⟨fault, .inr (Except.error.inj same).symm⟩, .of_unchanged ?_⟩
      exact writeIfChanged_error notWritten
    next => cases (Prod.mk.inj failed).1

/-- A patch that succeeds is made in its file, which was there. -/
theorem applyPatch_ok {store after : σ} {patch : Patch} {outcome : WriteOutcome}
    (done : applyPatch store patch = (.ok outcome, after)) :
    (content store patch.path).isSome = true ∧ Patched store [patch] after := by
  rw [applyPatch] at done
  split at done
  next => cases (Prod.mk.inj done).1
  next text readable =>
    split at done
    next => cases (Prod.mk.inj done).1
    next written =>
      obtain ⟨-, rfl⟩ := Prod.mk.inj done
      have held := content_of_read readable
      have alone (path : Path) : Patch.replacementsAt path [] = [] := rfl
      refine ⟨by rw [held]; rfl, fun path => ?_⟩
      rw [writeIfChanged_ok written, Patch.replacementsAt_cons, alone, List.append_nil]
      cases same : patch.path.same path with
      | true =>
        rw [if_pos rfl, if_pos rfl, ← content_congr store same, held]
        rfl
      | false => simp

/-- A pass fails with its first patch, or goes on behind it and ends as the rest of the pass
does. -/
theorem applyPatches_cons_cases {store after : σ} {patch : Patch} {rest : List Patch}
    {result : Except GenerationError (List Path)}
    (done : applyPatches store (patch :: rest) = (result, after)) :
    (∃ reason, applyPatch store patch = (.error reason, after) ∧ result = .error reason) ∨
      ∃ outcome middle later, applyPatch store patch = (.ok outcome, middle) ∧
        applyPatches middle rest = (later, after) ∧
          ((∃ changed all, later = .ok changed ∧ result = .ok all) ∨
            ∃ reason, later = .error reason ∧ result = .error reason) := by
  rw [applyPatches] at done
  split at done
  next reason _ failed =>
    obtain ⟨rfl, rfl⟩ := Prod.mk.inj done
    exact .inl ⟨reason, failed, rfl⟩
  next outcome middle first =>
    split at done
    next reason _ failed =>
      obtain ⟨rfl, rfl⟩ := Prod.mk.inj done
      exact .inr ⟨outcome, middle, _, first, failed, .inr ⟨reason, rfl, rfl⟩⟩
    next changed _ finished =>
      obtain ⟨rfl, rfl⟩ := Prod.mk.inj done
      exact .inr ⟨outcome, middle, _, first, finished, .inl ⟨changed, _, rfl, rfl⟩⟩

/-- A pass makes patches in order until it is done or one of them fails. -/
theorem applyPatches_cases {store after : σ} {patches : List Patch}
    {result : Except GenerationError (List Path)}
    (done : applyPatches store patches = (result, after)) :
    ∃ made left, patches = made ++ left ∧
      (∀ patch ∈ made, (content store patch.path).isSome = true) ∧ Patched store made after ∧
      ∀ reason, result = .error reason →
        ∃ patch later, left = patch :: later ∧ reason.FailedAt patch.path := by
  induction patches generalizing store result with
  | nil =>
    obtain ⟨rfl, rfl⟩ := Prod.mk.inj done
    refine ⟨[], [], rfl, fun _ member => absurd member List.not_mem_nil,
      .of_unchanged fun _ => rfl, fun reason impossible => ?_⟩
    cases impossible
  | cons patch rest ih =>
    rcases applyPatches_cons_cases done with
      ⟨reason, failed, rfl⟩ | ⟨outcome, middle, later, first, continued, ending⟩
    · obtain ⟨failedAt, unchanged⟩ := applyPatch_error failed
      refine ⟨[], patch :: rest, rfl, fun _ member => absurd member List.not_mem_nil, unchanged,
        fun other same => ?_⟩
      exact ⟨patch, rest, rfl, Except.error.inj same ▸ failedAt⟩
    · obtain ⟨held, patched⟩ := applyPatch_ok first
      obtain ⟨made, left, split, heldLater, patchedLater, fails⟩ := ih continued
      refine ⟨patch :: made, left, by rw [split]; rfl, ?_, patched.append patchedLater,
        fun reason failed => ?_⟩
      · refine List.forall_mem_cons.mpr ⟨held, fun other member => ?_⟩
        rw [← patched.isSome_eq]
        exact heldLater other member
      · rcases ending with ⟨changed, all, finished, rfl⟩ | ⟨other, rfl, rfl⟩
        · cases failed
        · exact fails reason failed

end References

namespace FaultFree

variable {store after : σ}

theorem overwrite (faultFree : FaultFree store) (path : Path) (text : String) :
    ∃ outcome after, Store.overwrite store path text = (.ok outcome, after) ∧ FaultFree after := by
  obtain ⟨after, written, later⟩ := faultFree.write path text
  exact ⟨.written, after, by rw [Store.overwrite, written], later⟩

theorem writeIfChanged (faultFree : FaultFree store) {path : Path} {current : String}
    (held : content store path = some current) (text : String) :
    ∃ outcome after, Store.writeIfChanged store path text = (.ok outcome, after) ∧
      FaultFree after := by
  rw [Store.writeIfChanged, faultFree.read held]
  dsimp only
  split
  · split
    · exact ⟨_, store, rfl, faultFree⟩
    · exact faultFree.overwrite path text
  · exact faultFree.overwrite path text

/-- Without faults, a patch is made if its file is there. -/
theorem applyPatch (faultFree : FaultFree store) {patch : Patch} {text : String}
    (held : content store patch.path = some text) :
    ∃ outcome after, References.applyPatch store patch = (.ok outcome, after) ∧
      FaultFree after := by
  obtain ⟨outcome, after, written, later⟩ := faultFree.writeIfChanged held (patch.apply text)
  refine ⟨outcome, after, ?_, later⟩
  rw [References.applyPatch, faultFree.read held]
  dsimp only
  rw [written]

/-- Without faults, a pass goes on as long as the files are there. -/
theorem patched (faultFree : FaultFree store) {patches : List Patch}
    {result : Except GenerationError (List Path)}
    (done : References.applyPatches store patches = (result, after)) :
    Patched store (patches.takeWhile fun patch => (content store patch.path).isSome) after := by
  induction patches generalizing store result with
  | nil =>
    obtain ⟨-, rfl⟩ := Prod.mk.inj done
    exact .of_unchanged fun _ => rfl
  | cons patch rest ih =>
    rw [List.takeWhile_cons]
    rcases References.applyPatches_cons_cases done with
      ⟨reason, failed, -⟩ | ⟨outcome, middle, later, first, continued, -⟩
    · cases held : content store patch.path with
      | none => exact (References.applyPatch_error failed).2
      | some text =>
        obtain ⟨outcome, other, made, -⟩ := faultFree.applyPatch held
        rw [failed] at made
        cases (Prod.mk.inj made).1
    · obtain ⟨held, patched⟩ := References.applyPatch_ok first
      obtain ⟨text, here⟩ := Option.isSome_iff_exists.mp held
      obtain ⟨again, other, made, middleFree⟩ := faultFree.applyPatch here
      rw [first] at made
      obtain ⟨-, rfl⟩ := Prod.mk.inj made
      rw [held, if_pos rfl]
      have patchedLater := ih middleFree continued
      simp only [patched.isSome_eq] at patchedLater
      exact patched.append patchedLater

end FaultFree

namespace References

variable {references : References} {newTypes : List Declaration}

/-- A failure at a file says which file it is. -/
theorem failedAt_unique {reason : GenerationError} {file other : Path}
    (here : reason.FailedAt file) (there : reason.FailedAt other) : file = other := by
  obtain ⟨fault, rfl | rfl⟩ := here
  · obtain ⟨otherFault, same | same⟩ := there
    · exact (GenerationError.read.inj same).1
    · cases same
  · obtain ⟨otherFault, same | same⟩ := there
    · cases same
    · exact (GenerationError.write.inj same).1

/-- Planning does not fail at a file. -/
theorem not_failedAt_of_plan {reason : GenerationError}
    (failed : references.plan newTypes = .error reason) (file : Path) : ¬ reason.FailedAt file := by
  rintro ⟨fault, same⟩
  rcases error_of_planFrom failed with schemaFault | ⟨entry, -, -, -, rfl⟩
  · rcases same with rfl | rfl <;> cases schemaFault
  · rcases same with impossible | impossible <;> cases impossible

/-- Replacements that were made in a tidy file need not be made again. -/
theorem apply_made_eq {made more left : List Patch}
    (planned : references.plan newTypes = .ok (made ++ more ++ left))
    (distinct : (newTypes.map Declaration.type).Nodup)
    (braceless : KnownTypes.BracelessNames ⟨newTypes⟩) {path : Path} {text : String}
    (tidy : Tidy text.toList) :
    Patch.apply ⟨path, Patch.replacementsAt path (made ++ more)⟩
        (Patch.apply ⟨path, Patch.replacementsAt path made⟩ text) =
      Patch.apply ⟨path, Patch.replacementsAt path (made ++ more)⟩ text := by
  obtain ⟨cut, sound, rfl⟩ := tidy.exists_tokenText
  have entries : ∀ entry ∈ Patch.replacementsAt path (made ++ more ++ left), _ :=
    replacements_fill planned distinct braceless
  rw [Patch.replacementsAt_append, List.forall_mem_append] at entries
  refine sound.apply_absorb entries.1 ?_
  rw [Patch.replacementsAt_append]
  exact List.subset_append_left _ _

/-- Once the faults are gone, another pass ends where a single one without faults does. -/
theorem resumed_eq {made left : List Patch} {store after retry whole : σ}
    (planned : references.plan newTypes = .ok (made ++ left))
    (distinct : (newTypes.map Declaration.type).Nodup)
    (braceless : KnownTypes.BracelessNames ⟨newTypes⟩)
    (held : ∀ patch ∈ made, (content store patch.path).isSome = true)
    (patched : Patched store made after)
    (tidy : ∀ file ∈ references.schedule newTypes, ∀ text, content store file = some text →
      Tidy text.toList)
    (retryFree : FaultFree retry) (wholeFree : FaultFree whole)
    (retried : ∀ path, content retry path = content after path)
    (started : ∀ path, content whole path = content store path) (path : Path) :
    content (applyPatches retry (made ++ left)).2 path =
      content (applyPatches whole (made ++ left)).2 path := by
  have again : Patched retry _ (applyPatches retry (made ++ left)).2 := retryFree.patched rfl
  have once : Patched whole _ (applyPatches whole (made ++ left)).2 := wholeFree.patched rfl
  -- Both passes come as far as the files are there, and the failed one came no further.
  simp only [retried, patched.isSome_eq] at again
  simp only [started] at once
  rw [List.takeWhile_append_of_pos held] at again once
  rw [again, once, retried, started, patched, Option.map_map]
  cases held : content store path with
  | none => rfl
  | some text =>
    rw [Option.map_some, Option.map_some, Function.comp_apply, Option.some.injEq]
    by_cases concerned : ∃ patch ∈ made ++ left, patch.path.same path = true
    · obtain ⟨patch, member, same⟩ := concerned
      have scheduled : patch.path ∈ references.schedule newTypes :=
        map_path_plan planned ▸ List.mem_map_of_mem member
      have isTidy := tidy patch.path scheduled text ((content_congr store same).trans held)
      rw [← List.takeWhile_append_dropWhile
        (p := fun patch : Patch => (content store patch.path).isSome) (l := left),
        ← List.append_assoc] at planned
      exact apply_made_eq planned distinct braceless isTidy
    · have apart : ∀ patch ∈ made, patch.path.same path = false := by
        intro patch member
        rw [← Bool.not_eq_true]
        exact fun same => concerned ⟨patch, List.mem_append_left _ member, same⟩
      rw [Patch.replacementsAt_eq_nil apart, Patch.apply_nil, id]

/-- A pass that fails for the schema leaves everything as it is. One that fails at a file leaves
this file and every file that was not scheduled before it. And once there are no more faults,
another pass ends with what a single pass without faults would have come to. -/
theorem failed_resolve_resumable {store after : σ} {reason : GenerationError}
    (distinct : (newTypes.map Declaration.type).Nodup)
    (braceless : ∀ declaration ∈ newTypes, Braceless declaration.type.text.toList)
    (failed : references.resolve newTypes store = (.error reason, after)) :
    ((∀ file, ¬ reason.FailedAt file) → ∀ path, content after path = content store path) ∧
      (∀ file, reason.FailedAt file →
        ∃ earlier later, references.schedule newTypes = earlier ++ file :: later ∧
          content after file = content store file ∧
          ∀ path, (∀ other ∈ earlier, other.same path = false) →
            content after path = content store path) ∧
      ((∀ file ∈ references.schedule newTypes, ∀ text, content store file = some text →
          Tidy text.toList) →
        ∀ retry whole : σ, FaultFree retry → FaultFree whole →
          (∀ path, content retry path = content after path) →
          (∀ path, content whole path = content store path) →
          ∀ path, content (references.resolve newTypes retry).2 path =
            content (references.resolve newTypes whole).2 path) := by
  simp only [resolve] at failed ⊢
  cases planned : references.plan newTypes with
  | error other =>
    rw [planned] at failed
    obtain ⟨same, rfl⟩ := Prod.mk.inj failed
    obtain rfl := Except.error.inj same
    refine ⟨fun _ _ => rfl, fun file failedAt => ?_, ?_⟩
    · exact absurd failedAt (not_failedAt_of_plan planned file)
    · intro _ retry whole _ _ retried started path
      rw [retried, started]
  | ok patches =>
    rw [planned] at failed
    obtain ⟨made, left, rfl, held, patched, fails⟩ := applyPatches_cases failed
    obtain ⟨patch, later, rfl, failedAt⟩ := fails reason rfl
    have scheduled := map_path_plan planned
    rw [List.map_append, List.map_cons] at scheduled
    have unchanged : ∀ path, (∀ other ∈ made.map Patch.path, other.same path = false) →
        content after path = content store path := by
      intro path apart
      rw [List.forall_mem_map] at apart
      rw [patched, Patch.replacementsAt_eq_nil apart, Patch.apply_nil, Option.map_id, id]
    refine ⟨fun nowhere => absurd failedAt (nowhere patch.path), fun file here => ?_, ?_⟩
    · obtain rfl := failedAt_unique here failedAt
      refine ⟨made.map Patch.path, later.map Patch.path, scheduled.symm, ?_, unchanged⟩
      have apart := pairwise_plan planned
      rw [List.map_append, List.pairwise_append] at apart
      exact unchanged _ fun other member => apart.2.2 other member _ List.mem_cons_self
    · intro tidy retry whole retryFree wholeFree retried started path
      exact resumed_eq planned distinct braceless held patched tidy retryFree wholeFree retried
        started path

/-- Two records in files of their own that wait for one type. -/
def yardReferences : References where
  unresolved := [(⟨"a.Coop"⟩, [⟨"a.Egg"⟩]), (⟨"a.Yard"⟩, [⟨"a.Egg"⟩])]
  modules := [(⟨"a.Coop"⟩, ⟨"a/Coop.ts"⟩), (⟨"a.Yard"⟩, ⟨"a/Yard.ts"⟩)]

/-- The type that they wait for. -/
def yardTypes : List Declaration :=
  [.record { type := ⟨"a.Egg"⟩ } []]

/-- A text with a token of the type. -/
def yardText : TokenText where
  parts := [(['x', ' '], ⟨"a.Egg"⟩)]
  last := ['y']

/-- A store with this text in both files, in which the second one cannot be written. -/
def lockedYard : GuardedStore where
  inner := ⟨[(⟨"a/Coop.ts"⟩, yardText.written), (⟨"a/Yard.ts"⟩, yardText.written)]⟩
  guards := [(.writeDenied, ⟨"a/Yard.ts"⟩)]

theorem lockedYard_resumable : ∃ after,
    yardReferences.resolve yardTypes lockedYard =
        (.error (.write ⟨"a/Yard.ts"⟩ .denied), after) ∧
      content after ⟨"a/Yard.ts"⟩ = content lockedYard ⟨"a/Yard.ts"⟩ ∧
      ∀ path, content (yardReferences.resolve yardTypes { after with guards := [] }).2 path =
        content (yardReferences.resolve yardTypes { lockedYard with guards := [] }).2 path := by
  have fails : (yardReferences.resolve yardTypes lockedYard).1 =
      .error (.write ⟨"a/Yard.ts"⟩ .denied) := by
    decide
  obtain ⟨after, failed⟩ : ∃ after, yardReferences.resolve yardTypes lockedYard =
      (.error (.write ⟨"a/Yard.ts"⟩ .denied), after) :=
    ⟨_, Prod.ext fails rfl⟩
  have scheduled : yardReferences.schedule yardTypes = [⟨"a/Coop.ts"⟩, ⟨"a/Yard.ts"⟩] := by
    decide
  have sound : yardText.Sound := ⟨by decide, by decide⟩
  have tidy : ∀ file ∈ yardReferences.schedule yardTypes, ∀ text,
      content lockedYard file = some text → Tidy text.toList := by
    intro file listed text held
    have same : content lockedYard file = some yardText.written := by
      rw [scheduled, List.mem_cons, List.mem_singleton] at listed
      rcases listed with rfl | rfl <;> decide
    rw [same, Option.some.injEq] at held
    exact held ▸ sound.tidy
  obtain ⟨-, kept, resumed⟩ := failed_resolve_resumable (by decide) (by decide) failed
  obtain ⟨-, -, -, unchanged, -⟩ := kept ⟨"a/Yard.ts"⟩ ⟨.denied, .inr rfl⟩
  refine ⟨after, failed, unchanged, ?_⟩
  exact resumed tidy { after with guards := [] } { lockedYard with guards := [] }
    (GuardedStore.faultFree _) (GuardedStore.faultFree _) (fun _ => rfl) fun _ => rfl

end References

end Typescribe
