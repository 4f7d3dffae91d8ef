import Typescribe.Proofs.Generation.Patching
import Typescribe.Proofs.Generation.SoundTemplate
import Typescribe.Proofs.Placeholder.TokenText

/-!
# Resolving is substitution

Replacing the placeholders of newly known types, one type after the other and one file after the
other, comes to filling the places of all their tokens at once. The files that are named as changed
are those whose text is another one afterwards, and doing it again changes nothing.
-/

namespace Typescribe

open Placeholder

namespace References

/-- Whether a type in the file left a token for the given type. -/
def awaits (references : References) (file : Path) (type : TypeName) : Bool :=
  references.unresolved.any fun entry =>
    entry.2.contains type && (references.module? entry.1).any fun path => path.same file

/-- What takes the place of a type's token in a file: what fills the slot of the type if it is new
and the file waits for it, and the token itself otherwise. -/
def filling (references : References) (newTypes : List Declaration) (file : Path)
    (type : TypeName) : List Char :=
  if references.awaits file type then KnownTypes.slotText ⟨newTypes⟩ type
  else tokenChars type.text.toList

/-- The file holds a type that left a token. -/
def PointsTo (references : References) (file : Path) : Prop :=
  ∃ declaring referenced, references.Records declaring referenced ∧
    references.module? declaring = some file

variable {references : References} {newTypes : List Declaration} {patches : List Patch}
  {file path : Path} {type : TypeName}

theorem awaits_iff : references.awaits file type = true ↔
    ∃ declaring, (∃ path, references.module? declaring = some path ∧ path.same file = true) ∧
      references.Records declaring type := by
  simp only [awaits, List.any_eq_true, Bool.and_eq_true, List.contains_iff_mem,
    Option.any_eq_true]
  constructor
  · rintro ⟨entry, listed, referenced, path, located, same⟩
    exact ⟨entry.1, ⟨path, located, same⟩, entry, listed, rfl, referenced⟩
  · rintro ⟨-, ⟨path, located, same⟩, entry, listed, rfl, referenced⟩
    exact ⟨entry, listed, referenced, path, located, same⟩

section

variable (planned : references.plan newTypes = .ok patches)
include planned

/-- The types whose tokens a plan replaces in a file are the new ones that the file waits for. -/
theorem mem_replacedTypes_iff :
    type ∈ (Patch.replacementsAt file patches).map Prod.fst ↔
      references.awaits file type = true ∧ KnownTypes.contains ⟨newTypes⟩ type = true := by
  rw [List.mem_map, awaits_iff, KnownTypes.contains_iff]
  constructor
  · rintro ⟨item, listed, rfl⟩
    obtain ⟨declaring, located, declaration, isNew, recorded, -, same⟩ :=
      (mem_replacementsAt_plan planned).mp listed
    exact ⟨⟨declaring, located, same ▸ recorded⟩, declaration, isNew, same⟩
  · rintro ⟨⟨declaring, located, recorded⟩, declaration, isNew, rfl⟩
    obtain ⟨text, given⟩ :=
      (exists_plan_iff.mp ⟨patches, planned⟩ declaring declaration isNew recorded).2
    exact ⟨(declaration.type, text), (mem_replacementsAt_plan planned).mpr
      ⟨declaring, located, declaration, isNew, recorded, given, rfl⟩, rfl⟩

theorem filling_eq :
    references.filling newTypes file = fun type =>
      if type ∈ (Patch.replacementsAt file patches).map Prod.fst then
        KnownTypes.slotText ⟨newTypes⟩ type
      else tokenChars type.text.toList := by
  funext type
  simp only [filling, mem_replacedTypes_iff planned]
  cases references.awaits file type with
  | false => simp
  | true =>
    cases known : KnownTypes.contains ⟨newTypes⟩ type with
    | false => simp [KnownTypes.slotText_of_not_contains known]
    | true => simp

variable (distinct : (newTypes.map Declaration.type).Nodup)
  (braceless : KnownTypes.BracelessNames ⟨newTypes⟩)
include distinct braceless

/-- What a plan puts in the place of a token is what fills the slot of its type. -/
theorem replacements_fill :
    ∀ entry ∈ Patch.replacementsAt path patches, Braceless entry.1.text.toList ∧
      entry.2.toList = KnownTypes.slotText ⟨newTypes⟩ entry.1 ∧
        Inert (KnownTypes.slotText ⟨newTypes⟩ entry.1) := by
  intro entry listed
  obtain ⟨-, -, declaration, isNew, -, given, same⟩ := (mem_replacementsAt_plan planned).mp listed
  have found := KnownTypes.find?_of_mem distinct isNew
  rw [← same]
  exact ⟨braceless declaration isNew, KnownTypes.toList_replacement found given,
    (braceless.settled_slotText (KnownTypes.contains_iff.mpr ⟨declaration, isNew, rfl⟩)).inert⟩

end

theorem resolve_eq_ok {σ : Type} [Store σ] {store after : σ} {changed : List Path} :
    references.resolve newTypes store = (.ok changed, after) ↔
      ∃ patches, references.plan newTypes = .ok patches ∧
        applyPatches store patches = (.ok changed, after) := by
  rw [resolve]
  cases references.plan newTypes with
  | error reason => simp
  | ok patches => simp

/-- Patches that change nothing are applied without a change. -/
theorem applyPatches_eq_self {store : MemoryStore}
    (unchanged : ∀ patch ∈ patches,
      ∃ text, store.get? patch.path = some text ∧ patch.apply text = text) :
    applyPatches store patches = (.ok [], store) := by
  induction patches with
  | nil => rfl
  | cons patch rest ih =>
    obtain ⟨⟨text, held, same⟩, unchangedRest⟩ := List.forall_mem_cons.mp unchanged
    have later : applyPatches (store.put patch.path (patch.apply text)) rest = (.ok [], store) := by
      rw [same, MemoryStore.put_eq_self held]
      exact ih unchangedRest
    rw [applyPatches_cons held later, if_pos same]

/-- The files named as changed are those whose patches change their texts. -/
theorem changed_eq {store after : MemoryStore} {changed : List Path}
    (apart : (patches.map Patch.path).Pairwise fun first second => first.same second = false)
    (held : ∀ patch ∈ patches, (store.get? patch.path).isSome = true)
    (done : applyPatches store patches = (.ok changed, after)) :
    changed = (patches.filter fun patch =>
      (store.get? patch.path).map patch.apply ≠ store.get? patch.path).map Patch.path := by
  induction patches generalizing store changed after with
  | nil =>
    rw [applyPatches, Prod.mk.injEq, Except.ok.injEq] at done
    exact done.1.symm
  | cons patch rest ih =>
    obtain ⟨heldHere, heldLater⟩ := List.forall_mem_cons.mp held
    obtain ⟨text, here⟩ := Option.isSome_iff_exists.mp heldHere
    rw [List.map_cons, List.pairwise_cons, List.forall_mem_map] at apart
    have heldThen : ∀ other ∈ rest,
        ((store.put patch.path (patch.apply text)).get? other.path).isSome = true :=
      fun other member => MemoryStore.isSome_get?_put (heldLater other member) _ _
    obtain ⟨later, final, patched, -⟩ := applyPatches_eq heldThen
    rw [applyPatches_cons here patched, Prod.mk.injEq, Except.ok.injEq] at done
    -- The first patch does not touch the files of the others.
    have others : ∀ other ∈ rest,
        (store.put patch.path (patch.apply text)).get? other.path = store.get? other.path := by
      intro other member
      rw [MemoryStore.get?_put, apart.1 other member, if_neg Bool.false_ne_true]
    have laterChanged : later = (rest.filter fun other =>
        (store.get? other.path).map other.apply ≠ store.get? other.path).map Patch.path := by
      rw [ih apart.2 heldThen patched]
      congr 1
      refine List.filter_congr fun other member => ?_
      rw [others other member]
    rw [← done.1, laterChanged, List.filter_cons, here]
    by_cases same : patch.apply text = text <;> simp [same]

section

variable {contents : Path → TokenText} {store after : MemoryStore} {changed : List Path}
  (planned : references.plan newTypes = .ok patches)
  (held : ∀ file, references.PointsTo file →
    store.get? file = some (contents file).written ∧ (contents file).Sound)
include planned held

theorem isSome_of_mem_plan : ∀ patch ∈ patches, (store.get? patch.path).isSome = true := by
  intro patch member
  have pointed : references.PointsTo patch.path := path_of_mem_plan planned member
  rw [(held patch.path pointed).1]
  rfl

variable (done : applyPatches store patches = (.ok changed, after))
include done

/-- The pass makes in each file the replacements that are planned for it, and adds no file. -/
theorem get?_of_applyPatches :
    after.paths = store.paths ∧ ∀ path, after.get? path =
      (store.get? path).map (Patch.apply ⟨path, Patch.replacementsAt path patches⟩) := by
  obtain ⟨named, final, patched, -, paths, texts⟩ :=
    applyPatches_eq (isSome_of_mem_plan planned held)
  rw [done, Prod.mk.injEq] at patched
  rw [patched.2]
  exact ⟨paths, texts⟩

theorem get?_of_mem_patches {patch : Patch} (member : patch ∈ patches)
    (same : patch.path.same path = true) :
    after.get? path = (store.get? path).map patch.apply := by
  rw [(get?_of_applyPatches planned held done).2,
    Patch.replacementsAt_eq (pairwise_plan planned) member same]
  rfl

theorem get?_of_not_patched (none : ∀ patch ∈ patches, patch.path.same path = false) :
    after.get? path = store.get? path := by
  rw [(get?_of_applyPatches planned held done).2, Patch.replacementsAt_eq_nil none,
    Patch.apply_nil, Option.map_id, id]

/-- The files named as changed are those with another text, each once. -/
theorem changed_iff :
    (changed.Pairwise fun first second => first.same second = false) ∧
      ∀ path, (∃ file ∈ changed, file.same path = true) ↔ after.get? path ≠ store.get? path := by
  rw [changed_eq (pairwise_plan planned) (isSome_of_mem_plan planned held) done]
  refine ⟨(pairwise_plan planned).sublist (List.filter_sublist.map _), fun path => ?_⟩
  constructor
  · rintro ⟨file, listed, same⟩
    obtain ⟨patch, kept, rfl⟩ := List.mem_map.mp listed
    obtain ⟨member, changes⟩ := List.mem_filter.mp kept
    rw [get?_of_mem_patches planned held done member same, ← MemoryStore.get?_congr same]
    exact of_decide_eq_true changes
  · intro changes
    by_cases patched : ∃ patch ∈ patches, patch.path.same path = true
    · obtain ⟨patch, member, same⟩ := patched
      rw [get?_of_mem_patches planned held done member same, ← MemoryStore.get?_congr same]
        at changes
      refine ⟨patch.path, List.mem_map_of_mem (List.mem_filter.mpr ⟨member, ?_⟩), same⟩
      exact decide_eq_true changes
    · refine absurd (get?_of_not_patched planned held done fun patch member => ?_) changes
      rw [← Bool.not_eq_true]
      exact fun same => patched ⟨patch, member, same⟩

variable (distinct : (newTypes.map Declaration.type).Nodup)
  (braceless : KnownTypes.BracelessNames ⟨newTypes⟩)
include distinct braceless

/-- In a file that is pointed to, the places of the tokens are filled. -/
theorem get?_of_pointsTo (pointed : references.PointsTo file) :
    after.get? file =
      some (String.ofList ((contents file).fill (references.filling newTypes file))) := by
  obtain ⟨content, sound⟩ := held file pointed
  rw [(get?_of_applyPatches planned held done).2, content, Option.map_some,
    sound.apply_written (replacements_fill planned distinct braceless), filling_eq planned]

/-- The pass leaves no token that was not there. -/
theorem residual_sublist {text : String} (found : after.get? path = some text) :
    ∃ old, store.get? path = some old ∧ (residual text).Sublist (residual old) := by
  by_cases patched : ∃ patch ∈ patches, patch.path.same path = true
  · obtain ⟨patch, member, same⟩ := patched
    have pointed : references.PointsTo patch.path := path_of_mem_plan planned member
    obtain ⟨content, sound⟩ := held patch.path pointed
    have clear : Template.Clear (references.filling newTypes patch.path) := by
      intro type
      rw [filling]
      split
      · exact braceless.steady_slotText.clear type
      · exact .inl rfl
    rw [← MemoryStore.get?_congr same,
      get?_of_pointsTo planned held done distinct braceless pointed, Option.some.injEq] at found
    refine ⟨_, MemoryStore.get?_congr same ▸ content, ?_⟩
    rw [← found, sound.residual_fill clear, TokenText.written,
      sound.residual_fill fun type => .inl rfl]
    simp
  · refine ⟨text, ?_, List.Sublist.refl _⟩
    rw [← found, get?_of_not_patched planned held done]
    intro patch member
    rw [← Bool.not_eq_true]
    exact fun same => patched ⟨patch, member, same⟩

/-- A second pass changes nothing. -/
theorem applyPatches_again : applyPatches after patches = (.ok [], after) := by
  refine applyPatches_eq_self fun patch member => ?_
  have pointed : references.PointsTo patch.path := path_of_mem_plan planned member
  obtain ⟨content, sound⟩ := held patch.path pointed
  have entries : ∀ entry ∈ Patch.replacementsAt patch.path patches, _ :=
    replacements_fill planned distinct braceless
  rw [Patch.replacementsAt_eq (pairwise_plan planned) member (Path.same_refl _)] at entries
  refine ⟨patch.apply (contents patch.path).written, ?_, ?_⟩
  · rw [get?_of_mem_patches planned held done member (Path.same_refl _), content, Option.map_some]
  · exact sound.apply_absorb entries (List.Subset.refl _)

end

/-- Resolving newly known types fills the places of their tokens, in every file that waits for them
and nowhere else, and names the files that it changes. No token is added, and a second time there
is nothing to do. -/
theorem resolve_substitutes {contents : Path → TokenText} {store after : MemoryStore}
    {changed : List Path} (distinct : (newTypes.map Declaration.type).Nodup)
    (braceless : ∀ declaration ∈ newTypes, Braceless declaration.type.text.toList)
    (held : ∀ file, references.PointsTo file →
      store.get? file = some (contents file).written ∧ (contents file).Sound)
    (done : references.resolve newTypes store = (.ok changed, after)) :
    (∀ file, references.PointsTo file → after.get? file =
        some (String.ofList ((contents file).fill (references.filling newTypes file)))) ∧
      (∀ path, (∀ file, references.PointsTo file → file.same path = false) →
        after.get? path = store.get? path) ∧
      after.paths = store.paths ∧
      (changed.Pairwise fun first second => first.same second = false) ∧
      (∀ path, (∃ file ∈ changed, file.same path = true) ↔ after.get? path ≠ store.get? path) ∧
      (∀ path text, after.get? path = some text →
        ∃ old, store.get? path = some old ∧ (residual text).Sublist (residual old)) ∧
      references.resolve newTypes after = (.ok [], after) := by
  obtain ⟨patches, planned, applied⟩ := resolve_eq_ok.mp done
  obtain ⟨once, exact⟩ := changed_iff planned held applied
  refine ⟨fun file pointed => ?_, fun path apart => ?_, ?_, once, exact, fun path text found => ?_,
    resolve_eq_ok.mpr ⟨patches, planned, ?_⟩⟩
  · exact get?_of_pointsTo planned held applied distinct braceless pointed
  · exact get?_of_not_patched planned held applied fun patch member =>
      apart patch.path (path_of_mem_plan planned member)
  · exact (get?_of_applyPatches planned held applied).1
  · exact residual_sublist planned held applied distinct braceless found
  · exact applyPatches_again planned held applied distinct braceless

/-- A record and a type nested in it, both in one file, that wait for three types. -/
def coopReferences : References where
  unresolved :=
    [(⟨"a.Coop"⟩, [⟨"a.Egg"⟩, ⟨"a.Straw"⟩]), (⟨"a.Coop.Perch"⟩, [⟨"a.Color"⟩, ⟨"a.Egg"⟩])]
  modules := [(⟨"a.Coop"⟩, ⟨"a/Coop.ts"⟩)]

/-- A text with tokens of the three types. -/
def coopText : TokenText where
  parts := [(['x', ' '], ⟨"a.Egg"⟩), ([' '], ⟨"a.Straw"⟩), ([' '], ⟨"a.Color"⟩),
    (['y', ' '], ⟨"a.Egg"⟩)]
  last := ['z', '{', '{']

/-- A store with this text. -/
def coopStore : MemoryStore where
  files := [(⟨"a/Coop.ts"⟩, coopText.written)]

/-- Two of the three types. -/
def coopTypes : List Declaration :=
  [.enumeration { type := ⟨"a.Color"⟩ }, .record { type := ⟨"a.Egg"⟩ } []]

theorem coop_substituted : ∃ changed after,
    coopReferences.resolve coopTypes coopStore = (.ok changed, after) ∧
      after.get? ⟨"a/Coop.ts"⟩ = some ("x @Type(() => Egg)\n   " ++
        "\x7b\x7bfieldDecorator:a.Straw\x7d\x7d y @Type(() => Egg)\n  z\x7b\x7b") ∧
      coopReferences.resolve coopTypes after = (.ok [], after) := by
  have held : ∀ file, coopReferences.PointsTo file →
      coopStore.get? file = some coopText.written ∧ coopText.Sound := by
    rintro file ⟨declaring, -, -, located⟩
    have listed := mem_modules_of_module? located
    simp only [coopReferences, List.mem_singleton, Prod.mk.injEq] at listed
    refine ⟨?_, by decide, by decide⟩
    rw [listed.2]
    simp [coopStore, MemoryStore.get?]
  obtain ⟨patches, planned⟩ : ∃ patches, coopReferences.plan coopTypes = .ok patches :=
    ⟨[⟨⟨"a/Coop.ts"⟩, [(⟨"a.Egg"⟩, "@Type(() => Egg)\n  "), (⟨"a.Color"⟩, ""),
      (⟨"a.Egg"⟩, "@Type(() => Egg)\n  ")]⟩], by decide⟩
  obtain ⟨changed, after, applied, -⟩ := applyPatches_eq (isSome_of_mem_plan planned held)
  have done := resolve_eq_ok.mpr ⟨patches, planned, applied⟩
  have filled : String.ofList (coopText.fill (coopReferences.filling coopTypes ⟨"a/Coop.ts"⟩)) =
      "x @Type(() => Egg)\n   " ++
        "\x7b\x7bfieldDecorator:a.Straw\x7d\x7d y @Type(() => Egg)\n  z\x7b\x7b" := by
    decide +kernel
  have pointed : coopReferences.PointsTo ⟨"a/Coop.ts"⟩ :=
    ⟨⟨"a.Coop"⟩, ⟨"a.Egg"⟩, ⟨_, List.mem_cons_self, rfl, List.mem_cons_self⟩, by decide⟩
  obtain ⟨texts, -, -, -, -, -, again⟩ := resolve_substitutes (by decide) (by decide) held done
  exact ⟨changed, after, done, filled ▸ texts _ pointed, again⟩

end References

end Typescribe
