import Typescribe.Proofs.Generation.Collisions
import Typescribe.Proofs.Generation.Dangling

/-!
# Which files are written more than once

A module is written with a token for each reference to a type that is not known yet, and once more
when such a type becomes known. If no two outputs are at one path, nothing else writes a file a
second time, so the files that are written more than once are the modules with forward references.
-/

namespace Typescribe

open KnownTypes (knowing)

/-- Whether generating schema files into an empty store writes a path more than once. -/
def rewrites (files : List SchemaFile) (path : Path) : Bool :=
  1 < ((journalOf files).writesAt path).length

/-- The declaration refers to a type that was not known when it was emitted, and is known now. -/
def Emission.RefersForward (emission : Emission) (known : KnownTypes) : Prop :=
  ∃ type ∈ emission.root.referencedTypes,
    emission.known.contains type = false ∧ known.contains type = true

/-- A declaration whose module is at the path refers to a type that only a later file makes
known. -/
def RefersForward (files : List SchemaFile) (path : Path) : Prop :=
  ∃ emission ∈ emissions .initial files, emission.root.type.moduleFile.same path = true ∧
    emission.RefersForward (KnownTypes.initial.registerFiles files)

theorem Emission.RefersForward.register {emission : Emission} {known : KnownTypes}
    (forward : emission.RefersForward known) (declarations : List Declaration) :
    emission.RefersForward (known.register declarations).known := by
  obtain ⟨type, referenced, unknown, isKnown⟩ := forward
  exact ⟨type, referenced, unknown, KnownTypes.contains_of_grown
    (KnownTypes.declarations_register known declarations) isKnown⟩

theorem DraftsAgree.of_append_left {first second : List (Path × String)}
    (agree : DraftsAgree (first ++ second)) : DraftsAgree first :=
  fun draft listed other otherListed =>
    agree draft (List.mem_append_left _ listed) other (List.mem_append_left _ otherListed)

/-- A draft is written to its path unless the same was drafted before. -/
theorem Journal.Recorded.writesAt_draft {journal : Journal}
    {outputs : List (Path × WriteOutcome)} {drafts : List (Path × String)} {path file : Path}
    {text : String} (recorded : journal.Recorded outputs)
    (written : journal.writesAt path = (lastDraft? path drafts).toList)
    (agree : DraftsAgree (drafts ++ [(file, text)])) :
    (journal.receive file text).writesAt path =
      (lastDraft? path (drafts ++ [(file, text)])).toList := by
  rw [writesAt_receive, lastDraft?_concat]
  cases same : file.same path with
  | false => simp [written]
  | true =>
    have content : journal.store.get? file = lastDraft? path drafts := by
      rw [MemoryStore.get?_congr same, ← recorded.latest, written]
      cases lastDraft? path drafts <;> rfl
    rw [content, written]
    cases last : lastDraft? path drafts with
    | none => simp
    | some earlier =>
      obtain ⟨draft, listed, here, rfl⟩ := exists_mem_of_lastDraft? last
      rw [Path.same_comm, ← Path.same_congr_left same, Path.same_comm] at here
      have isText : draft.2 = text := agree draft (List.mem_append_left _ listed) (file, text)
        (List.mem_append_right _ (List.mem_singleton_self _)) here
      simp [isText]

theorem PathsApart.of_append_left {first second : List Declaration}
    (apart : PathsApart (first ++ second)) : PathsApart first where
  modules := (List.pairwise_append.mp apart.modules).1
  clients service listed root member :=
    apart.clients service (List.mem_append_left _ listed) root (List.mem_append_left _ member)

namespace Session.Reaches

variable {done : List Emission} {session : Session Journal} {path : Path}

/-- What is replaced in a file is a forward reference of a declaration in it. -/
theorem refersForward (reached : Reaches done session)
    (spelled : ∀ emission ∈ done, ∀ part ∈ emission.root.flatten,
      part.type.root = emission.root.type)
    {patch : Patch} (revises : session.Revises patch) {entry : TypeName × String}
    (listed : entry ∈ patch.replacements) :
    ∃ emission ∈ done, emission.root.type.moduleFile.same patch.path = true ∧
      emission.RefersForward session.known := by
  obtain ⟨declaring, file, recorded, found, here⟩ := revises.recorded entry listed
  obtain ⟨emission, emitted, unknown, part, inside, rfl, refers⟩ := reached.records recorded
  obtain ⟨other, -, -, isModule⟩ :=
    reached.modules _ (References.mem_modules_of_module? found)
  obtain ⟨isRoot, isFile⟩ := Prod.mk.inj isModule
  rw [isFile, ← isRoot, spelled emission emitted part inside] at here
  obtain ⟨declaration, isKnown, same, -⟩ := revises.replaces entry listed
  refine ⟨emission, emitted, here, entry.1, ?_, unknown,
    KnownTypes.contains_iff.mpr ⟨declaration, isKnown, same⟩⟩
  rw [Declaration.referencedTypes_eq]
  exact List.mem_flatMap.mpr ⟨part, inside, refers⟩

/-- Without forward references, a path is written only when something is drafted for it, and only
once. -/
theorem writesAt_eq (reached : Reaches done session)
    (apart : PathsApart (done.map Emission.root))
    (spelled : ∀ emission ∈ done, ∀ part ∈ emission.root.flatten,
      part.type.root = emission.root.type)
    (settled : ∀ emission ∈ done, emission.root.type.moduleFile.same path = true →
      ¬ emission.RefersForward session.known) :
    session.store.writesAt path = (lastDraft? path (done.flatMap Emission.drafts)).toList := by
  induction reached with
  | start => rfl
  | learn _ declarations ih =>
    exact ih apart spelled fun emission member same forward =>
      settled emission member same (forward.register declarations)
  | type reached data written ih =>
    have before := ih (List.map_append ▸ apart).of_append_left
      (List.forall_mem_append.mp spelled).1 (List.forall_mem_append.mp settled).1
    have agree := apart.draftsAgree
    rw [List.flatMap_append, List.flatMap_singleton,
      Emission.drafts_of_typeModule data written] at agree ⊢
    exact reached.recorded.writesAt_draft before agree
  | @service done session service item reached written ih =>
    have before := ih (List.map_append ▸ apart).of_append_left
      (List.forall_mem_append.mp spelled).1 (List.forall_mem_append.mp settled).1
    have agree := apart.draftsAgree
    rw [List.flatMap_append, List.flatMap_singleton, Emission.drafts_of_serviceModule written,
      List.append_cons] at agree ⊢
    have module := reached.recorded.writesAt_draft before agree.of_append_left
    exact (reached.recorded.receive service.type.moduleFile item.render).writesAt_draft module agree
  | @revise done session patch text reached revises content ih =>
    have before := ih apart spelled settled
    -- A replacement would be a forward reference, so the patch leaves the text as it is.
    have unwritten : ¬ (patch.path.same path = true ∧
        session.store.store.get? patch.path ≠ some (patch.apply text)) := by
      rintro ⟨same, changed⟩
      have nothing : patch.replacements = [] := by
        refine List.eq_nil_iff_forall_not_mem.mpr fun entry listed => ?_
        obtain ⟨emission, emitted, here, forward⟩ := reached.refersForward spelled revises listed
        rw [Path.same_comm, Path.same_congr_left same, Path.same_comm] at here
        exact settled emission emitted here forward
      obtain ⟨file, replacements⟩ := patch
      obtain rfl : replacements = [] := nothing
      rw [Patch.apply_nil, id] at changed
      exact changed content
    rw [placed, Journal.writesAt_receive, if_neg unwritten, List.append_nil]
    exact before

end Session.Reaches

/-- An emission knows what is declared up to the end of its file. -/
theorem WellFormed.known_of_mem_emissions {old : List Declaration} {files : List SchemaFile}
    {emission : Emission} (wellFormed : WellFormed (old ++ rootsOf files))
    (member : emission ∈ emissions (knowing old) files) :
    ∃ earlier later, emission.known = knowing earlier ∧
      old ++ rootsOf files = earlier ++ later := by
  induction files generalizing old with
  | nil => exact absurd member List.not_mem_nil
  | cons file rest ih =>
    have split : old ++ rootsOf (file :: rest) =
        (old ++ file.declarations) ++ rootsOf rest := (List.append_assoc _ _ _).symm
    rw [split] at wellFormed ⊢
    have registered := wellFormed.of_append_left.register_knowing
    rcases mem_emissions_cons.mp member with ⟨isKnown, -⟩ | later
    · exact ⟨old ++ file.declarations, rootsOf rest, by rw [isKnown, registered], rfl⟩
    · rw [registered] at later
      exact ih wellFormed later

section

variable {files : List SchemaFile} {session : Session MemoryStore} {path : Path}
  (ran : Session.processFiles { store := ({} : MemoryStore) } files = (.ok (), session))

include ran

/-- If outputs are apart, only modules with forward references are written more than once. -/
theorem refersForward_of_rewrites (wellSpelled : WellSpelled (rootsOf files))
    (apart : PathsApart (generatedRoots files)) (rewritten : rewrites files path = true) :
    RefersForward files path := by
  obtain ⟨logged, reached, isJournal, -, known, registered⟩ := Session.exists_history ran
  by_contra settled
  have once : logged.store.writesAt path =
      (lastDraft? path ((emissions .initial files).flatMap Emission.drafts)).toList := by
    refine reached.writesAt_eq apart (fun emission member part inside =>
      wellSpelled.root_eq (of_mem_emissions member).1 inside) fun emission member here forward => ?_
    rw [← known, registered] at forward
    exact settled ⟨emission, member, here, forward⟩
  rw [rewrites, decide_eq_true_iff, ← isJournal, once] at rewritten
  cases last : lastDraft? path ((emissions .initial files).flatMap Emission.drafts) with
  | none => simp [last] at rewritten
  | some text => simp [last] at rewritten

/-- A module with a forward reference is written with a token that it does not hold in the end. -/
theorem rewrites_of_refersForward (wellFormed : WellFormed (rootsOf files))
    (clientNameFree : ClientNameFree (rootsOf files))
    (unmarkedTexts : UnmarkedTexts (rootsOf files)) (forward : RefersForward files path) :
    rewrites files path = true := by
  obtain ⟨emission, member, here, type, referenced, unknown, isKnown⟩ := forward
  obtain ⟨logged, reached, isJournal, stored, -, registered⟩ := Session.exists_history ran
  obtain ⟨item, made, first⟩ := reached.written emission member
  have declared := (of_mem_emissions member).1
  have data : emission.root.isService = false := by
    rw [← Bool.not_eq_true, Declaration.isService_iff]
    rintro ⟨body, isService⟩
    rw [isService] at referenced
    exact absurd referenced List.not_mem_nil
  rw [Emission.module?_of_data data] at made
  have sound := wellFormed.bracelessTypes.sound_template unmarkedTexts declared
  have held : type ∈ Placeholder.residual item.render := by
    have whole : WellFormed ([] ++ rootsOf files) := wellFormed
    rw [← KnownTypes.knowing_nil] at member
    obtain ⟨earlier, later, known, split⟩ := whole.known_of_mem_emissions member
    have earlierWellFormed : WellFormed earlier := (split ▸ whole).of_append_left
    rw [known] at made unknown
    rw [render_eq_fill made, Session.residual_template earlierWellFormed sound, List.mem_filter,
      unknown]
    exact ⟨referenced, rfl⟩
  obtain ⟨text, content, tokens⟩ := Session.residual_type_eq wellFormed clientNameFree
    unmarkedTexts ran declared data
  have final : text ∈ logged.store.writesAt emission.root.type.moduleFile := by
    apply List.mem_of_getLast?
    rw [reached.recorded.latest, ← stored, content]
  have different : item.render ≠ text := by
    rintro rfl
    rw [tokens, List.mem_filter, registered, isKnown] at held
    exact Bool.false_ne_true held.2
  -- The first text holds the token and the last one does not, so there are two.
  rw [rewrites, decide_eq_true_iff, ← isJournal, ← Journal.writesAt_congr here]
  rcases writes : logged.store.writesAt emission.root.type.moduleFile with
    _ | ⟨only, _ | ⟨second, rest⟩⟩
  · rw [writes] at first
    exact absurd first List.not_mem_nil
  · rw [writes, List.mem_singleton] at first final
    exact absurd (first.trans final.symm) different
  · simp

end

end Typescribe
