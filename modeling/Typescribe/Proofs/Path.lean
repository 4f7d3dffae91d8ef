import Mathlib.Data.List.Induction
import Typescribe.Proofs.Schema.TypeName
import Typescribe.Proofs.Store

/-!
# How paths are spelled and shown

The steps of a path are those of the texts between its slashes, behind a first step for a leading
slash or a leading dot. A path is shown by its steps. What is shown is itself a spelling of the
path, so two paths that are shown alike are the same. The parent of a file takes the steps in front
of the file.
-/

namespace Typescribe.Path

variable {path other : Path} {piece first : List Char} {rest : List (List Char)} {step : PathStep}

theorem stepOf?_eq_none_iff : stepOf? piece = none ↔ piece = [] ∨ piece = ['.'] := by
  rw [stepOf?]
  split
  next none => simp [none]
  next some =>
    refine iff_of_false ?_ some
    split
    · exact Option.some_ne_none _
    · exact Option.some_ne_none _

/-- A step is shown as the text that stands for it. -/
theorem text_of_stepOf? (taken : stepOf? piece = some step) : step.text.toList = piece := by
  rw [stepOf?] at taken
  split at taken
  · cases taken
  · split at taken
    next up =>
      obtain rfl := Option.some.inj taken
      exact up.symm
    next =>
      obtain rfl := Option.some.inj taken
      exact String.toList_ofList

theorem pieces_noSlash (path : Path) : ∀ piece ∈ path.pieces, '/' ∉ piece :=
  fun _ member => (mem_splitOn member).1

/-- A path with a leading slash starts at the root. -/
theorem steps_of_slash (split : path.pieces = [] :: rest) (nonempty : rest ≠ []) :
    path.steps = .root :: rest.filterMap stepOf? := by
  obtain ⟨second, later, rfl⟩ := List.exists_cons_of_ne_nil nonempty
  rw [steps, split]

/-- A path with a leading dot starts by staying. -/
theorem steps_of_dot (split : path.pieces = ['.'] :: rest) :
    path.steps = .here :: rest.filterMap stepOf? := by
  rw [steps, split]
  rfl

/-- Any other path takes the steps of its pieces. -/
theorem steps_of_step (split : path.pieces = first :: rest)
    (isStep : (stepOf? first).isSome = true) : path.steps = path.pieces.filterMap stepOf? := by
  have notNone : ¬ (first = [] ∨ first = ['.']) := by
    rw [← stepOf?_eq_none_iff]
    exact Option.isSome_iff_ne_none.mp isStep
  rw [steps]
  split
  next empty => rw [empty, List.filterMap_nil]
  next impossible =>
    rw [split, List.cons.injEq] at impossible
    exact absurd (.inl impossible.1) notNone
  next impossible =>
    rw [split, List.cons.injEq] at impossible
    exact absurd (.inl impossible.1) notNone
  next impossible =>
    rw [split, List.cons.injEq] at impossible
    exact absurd (.inr impossible.1) notNone
  next => rfl

/-- The texts of steps are the pieces that stand for them. -/
theorem map_text_filterMap (pieces : List (List Char)) :
    (pieces.filterMap stepOf?).map (fun step => step.text.toList) =
      pieces.filter fun piece => (stepOf? piece).isSome := by
  induction pieces with
  | nil => rfl
  | cons piece rest ih =>
    cases taken : stepOf? piece with
    | none => simpa [taken] using ih
    | some step => simpa [taken, text_of_stepOf? taken] using ih

theorem filterMap_filter_isSome (pieces : List (List Char)) :
    (pieces.filter fun piece => (stepOf? piece).isSome).filterMap stepOf? =
      pieces.filterMap stepOf? := by
  rw [List.filterMap_filter]
  congr 1
  funext piece
  cases stepOf? piece <;> rfl

/-- Pieces without slashes are found again between the slashes. -/
theorem pieces_intercalate {pieces : List (List Char)} (nonempty : pieces ≠ [])
    (noSlash : ∀ piece ∈ pieces, '/' ∉ piece) :
    (⟨String.ofList (['/'].intercalate pieces)⟩ : Path).pieces = pieces := by
  rw [Path.pieces, String.toList_ofList]
  exact List.splitOn_intercalate '/' noSlash nonempty

theorem shown_eq (path : Path) : path.shown = String.ofList
    (['/'].intercalate (path.steps.map fun step => step.text.toList)) := by
  rw [← String.toList_inj, shown, String.toList_intercalate, List.map_map]
  exact String.toList_ofList.symm

/-- What is shown of a path spells it. -/
theorem steps_shown (path : Path) : (⟨path.shown⟩ : Path).steps = path.steps := by
  have noSlash := path.pieces_noSlash
  cases split : path.pieces with
  | nil => exact absurd split (List.splitOn_ne_nil _ _)
  | cons first rest =>
    rw [split] at noSlash
    have kept : ∀ piece ∈ rest.filter fun piece => (stepOf? piece).isSome, '/' ∉ piece :=
      fun piece member => (List.forall_mem_cons.mp noSlash).2 piece (List.mem_filter.mp member).1
    cases taken : stepOf? first with
    | some step =>
      have isStep : (stepOf? first).isSome = true := by rw [taken, Option.isSome_some]
      have spelled : (⟨path.shown⟩ : Path).pieces =
          first :: rest.filter fun piece => (stepOf? piece).isSome := by
        rw [shown_eq, steps_of_step split isStep, split, map_text_filterMap,
          List.filter_cons, if_pos isStep]
        exact pieces_intercalate (List.cons_ne_nil _ _)
          (List.forall_mem_cons.mpr ⟨(List.forall_mem_cons.mp noSlash).1, kept⟩)
      rw [steps_of_step spelled isStep, steps_of_step split isStep, spelled, split,
        List.filterMap_cons, List.filterMap_cons, filterMap_filter_isSome]
    | none =>
      rcases stepOf?_eq_none_iff.mp taken with rfl | rfl
      · rcases rest with - | ⟨second, rest⟩
        · have empty : path.steps = [] := by rw [steps, split]
          rw [shown_eq, empty]
          rfl
        · have spelled : (⟨path.shown⟩ : Path).pieces =
              [] :: [] :: (second :: rest).filter fun piece => (stepOf? piece).isSome := by
            -- The root is shown as a slash, and the next step stands behind another one.
            have slashes : ∀ pieces : List (List Char),
                ['/'].intercalate (['/'] :: pieces) = ['/'].intercalate ([] :: [] :: pieces) :=
              fun pieces => by cases pieces <;> rfl
            rw [shown_eq, steps_of_slash split (List.cons_ne_nil _ _), List.map_cons,
              map_text_filterMap]
            refine (congrArg (fun chars => (⟨String.ofList chars⟩ : Path).pieces)
              (slashes _)).trans (pieces_intercalate (List.cons_ne_nil _ _) ?_)
            exact List.forall_mem_cons.mpr
              ⟨List.not_mem_nil, List.forall_mem_cons.mpr ⟨List.not_mem_nil, kept⟩⟩
          rw [steps_of_slash spelled (List.cons_ne_nil _ _),
            steps_of_slash split (List.cons_ne_nil _ _), List.filterMap_cons_none taken,
            filterMap_filter_isSome]
      · have spelled : (⟨path.shown⟩ : Path).pieces =
            ['.'] :: rest.filter fun piece => (stepOf? piece).isSome := by
          rw [shown_eq, steps_of_dot split, List.map_cons, map_text_filterMap]
          exact pieces_intercalate (List.cons_ne_nil _ _)
            (List.forall_mem_cons.mpr ⟨by decide, kept⟩)
        rw [steps_of_dot spelled, steps_of_dot split, filterMap_filter_isSome]

/-- Paths that are shown alike are the same. -/
theorem same_of_shown_eq (alike : path.shown = other.shown) : path.same other = true := by
  rw [same_iff, ← steps_shown path, alike, steps_shown]

theorem shown_congr (same : path.same other = true) : path.shown = other.shown := by
  rw [shown, shown, same_iff.mp same]

theorem nodup_map_shown {paths : List Path}
    (apart : paths.Pairwise fun first second => first.same second = false) :
    (paths.map shown).Nodup := by
  refine List.pairwise_map.mpr (apart.imp fun {left right} different alike => ?_)
  rw [same_of_shown_eq alike] at different
  cases different

/-! ## Parents -/

variable {outer file : List Char}

theorem dropTrailing_isPrefix (pieces : List (List Char)) : dropTrailing pieces <+: pieces := by
  rw [dropTrailing, ← List.reverse_suffix, List.reverse_reverse]
  exact List.dropWhile_suffix _

/-- A piece that is a step is not dropped. -/
theorem dropTrailing_concat (pieces : List (List Char)) (isStep : (stepOf? file).isSome = true) :
    dropTrailing (pieces ++ [file]) = pieces ++ [file] := by
  have kept : ¬ (stepOf? file).isNone = true := by
    rw [Option.isNone_iff_eq_none]
    exact Option.isSome_iff_ne_none.mp isStep
  rw [dropTrailing, List.reverse_concat, List.dropWhile_cons, if_neg kept, ← List.reverse_concat,
    List.reverse_reverse]

/-- What is dropped takes no step. -/
theorem filterMap_dropTrailing (pieces : List (List Char)) :
    (dropTrailing pieces).filterMap stepOf? = pieces.filterMap stepOf? := by
  induction pieces using List.reverseRecOn with
  | nil => rfl
  | append_singleton pieces last ih =>
    cases taken : stepOf? last with
    | some step => rw [dropTrailing_concat pieces (by rw [taken, Option.isSome_some])]
    | none =>
      have dropped : dropTrailing (pieces ++ [last]) = dropTrailing pieces := by
        rw [dropTrailing, List.reverse_concat, List.dropWhile_cons, if_pos (by rw [taken]; rfl),
          dropTrailing]
      rw [dropped, ih, List.filterMap_append, List.filterMap_cons_none taken, List.filterMap_nil,
        List.append_nil]

/-- The steps of pieces are those of the text that they are joined to. -/
theorem filterMap_splitOn_intercalate {pieces : List (List Char)}
    (noSlash : ∀ piece ∈ pieces, '/' ∉ piece) :
    ((['/'].intercalate pieces).splitOn '/').filterMap stepOf? = pieces.filterMap stepOf? := by
  cases pieces with
  | nil => rfl
  | cons first rest => rw [List.splitOn_intercalate '/' noSlash (List.cons_ne_nil _ _)]

/-- The parent of a path is its anchor with what stands between the anchor and the last step. -/
theorem parent?_eq {pieces : List (List Char)}
    (split : (path.text.toList.drop path.anchor.length).splitOn '/' = pieces ++ [file])
    (isStep : (stepOf? file).isSome = true) :
    path.parent? = some
      ⟨String.ofList (path.anchor ++ ['/'].intercalate (dropTrailing pieces))⟩ := by
  rw [parent?]
  dsimp only
  rw [split, dropTrailing_concat pieces isStep]
  split
  next impossible => exact absurd impossible (by simp)
  next => rw [List.dropLast_concat]

theorem splitOn_slash_cons (chars : List Char) :
    ('/' :: chars).splitOn '/' = [] :: chars.splitOn '/' :=
  List.splitOn_append_cons_self [] chars

/-- The steps of what is kept of pieces are those of the pieces, also behind an anchor. -/
theorem filterMap_kept {pieces : List (List Char)} {text : List Char}
    (listed : ∀ piece ∈ pieces, piece ∈ text.splitOn '/') :
    ((['/'].intercalate (dropTrailing pieces)).splitOn '/').filterMap stepOf? =
      pieces.filterMap stepOf? := by
  rw [filterMap_splitOn_intercalate, filterMap_dropTrailing]
  exact fun piece member =>
    (mem_splitOn (listed piece ((dropTrailing_isPrefix pieces).subset member))).1

/-- The parent of a file that is reached from the root. -/
theorem exists_parent_of_slash {pieces : List (List Char)}
    (text : path.text.toList = '/' :: outer) (split : outer.splitOn '/' = pieces ++ [file])
    (isStep : (stepOf? file).isSome = true) :
    ∃ parent, path.parent? = some parent ∧ parent.isAbsolute = path.isAbsolute ∧
      parent.pieces.filterMap stepOf? = pieces.filterMap stepOf? := by
  have anchored : path.anchor = ['/'] := by
    rw [anchor, text]
    rfl
  refine ⟨_, parent?_eq (by rw [anchored, text]; exact split) isStep, ?_, ?_⟩
  · rw [isAbsolute, isAbsolute, text, anchored, String.toList_ofList]
    rfl
  · rw [Path.pieces, anchored, String.toList_ofList, List.singleton_append, splitOn_slash_cons,
      List.filterMap_cons_none (by rfl)]
    exact filterMap_kept fun piece member => split ▸ List.mem_append_left _ member

/-- The parent of a file that is spelled with a leading dot. -/
theorem exists_parent_of_dot {pieces : List (List Char)}
    (text : path.text.toList = '.' :: '/' :: outer) (split : outer.splitOn '/' = pieces ++ [file])
    (isStep : (stepOf? file).isSome = true) :
    ∃ parent, path.parent? = some parent ∧ parent.isAbsolute = path.isAbsolute ∧
      parent.pieces.filterMap stepOf? = pieces.filterMap stepOf? := by
  have anchored : path.anchor = ['.'] := by
    rw [anchor, text]
    rfl
  have remains : (path.text.toList.drop path.anchor.length).splitOn '/' =
      ([] :: pieces) ++ [file] := by
    rw [anchored, text, List.cons_append, ← split]
    exact splitOn_slash_cons outer
  refine ⟨_, parent?_eq remains isStep, ?_, ?_⟩
  · rw [isAbsolute, isAbsolute, text, anchored, String.toList_ofList]
    rfl
  · have steps := filterMap_dropTrailing ([] :: pieces)
    rw [List.filterMap_cons_none (by rfl)] at steps
    rw [Path.pieces, anchored, String.toList_ofList, ← steps]
    have leading := dropTrailing_isPrefix ([] :: pieces)
    have listed : ∀ piece ∈ dropTrailing ([] :: pieces), '/' ∉ piece := by
      intro piece member
      rcases List.mem_cons.mp (leading.subset member) with rfl | member
      · exact List.not_mem_nil
      · exact (mem_splitOn (split ▸ List.mem_append_left _ member)).1
    cases kept : dropTrailing ([] :: pieces) with
    | nil => rfl
    | cons first more =>
      rw [kept] at leading listed
      -- The dot and the empty piece behind it are one piece.
      obtain rfl : first = [] := (List.cons_prefix_cons.mp leading).1
      have joined : ['.'] ++ ['/'].intercalate ([] :: more) = ['/'].intercalate (['.'] :: more) :=
        by cases more <;> rfl
      rw [joined, List.splitOn_intercalate '/' ?_ (List.cons_ne_nil _ _)]
      · rfl
      · exact List.forall_mem_cons.mpr ⟨by decide, (List.forall_mem_cons.mp listed).2⟩

/-- The parent of a file that is spelled in any other way. -/
theorem exists_parent_of_name {pieces : List (List Char)} {c : Char} {rest : List Char}
    (text : path.text.toList = c :: rest) (relative : c ≠ '/') (anchored : path.anchor = [])
    (split : (c :: rest).splitOn '/' = pieces ++ [file])
    (isStep : (stepOf? file).isSome = true) :
    ∃ parent, path.parent? = some parent ∧ parent.isAbsolute = path.isAbsolute ∧
      parent.pieces.filterMap stepOf? = pieces.filterMap stepOf? := by
  have headed : ∃ first later, pieces ++ [file] = (c :: first) :: later := by
    rw [← split, List.splitOn_cons_eq_if_modifyHead, if_neg (by simpa using relative)]
    obtain ⟨first, later, parts⟩ := List.exists_cons_of_ne_nil (List.splitOn_ne_nil '/' rest)
    exact ⟨first, later, by rw [parts, List.modifyHead_cons]⟩
  have notSlash : (c == '/') = false := by simpa using relative
  refine ⟨_, parent?_eq (by rw [anchored, text]; exact split) isStep, ?_, ?_⟩
  · rw [isAbsolute, isAbsolute, text, anchored, String.toList_ofList, List.nil_append,
      List.head?_cons, Option.some_beq_some, notSlash]
    cases kept : dropTrailing pieces with
    | nil => rfl
    | cons piece more =>
      obtain ⟨first, later, parts⟩ := headed
      have leading : piece :: more <+: (c :: first) :: later := by
        rw [← kept, ← parts]
        exact (dropTrailing_isPrefix pieces).trans (List.prefix_append _ _)
      obtain rfl : piece = c :: first := (List.cons_prefix_cons.mp leading).1
      cases more with
      | nil => simpa [List.intercalate] using notSlash
      | cons next more => simpa [List.intercalate] using notSlash
  · rw [Path.pieces, anchored, String.toList_ofList, List.nil_append]
    exact filterMap_kept fun piece member => split ▸ List.mem_append_left _ member

/-- The parent of a file starts where the file does and takes the steps in front of it. -/
theorem exists_parent (text : path.text.toList = outer ++ '/' :: file) (noSlash : '/' ∉ file)
    (isStep : (stepOf? file).isSome = true) :
    ∃ parent, path.parent? = some parent ∧ parent.isAbsolute = path.isAbsolute ∧
      parent.pieces.filterMap stepOf? = (outer.splitOn '/').filterMap stepOf? := by
  have behind : ∀ front : List Char,
      (front ++ '/' :: file).splitOn '/' = front.splitOn '/' ++ [file] := fun front => by
    rw [List.splitOn_append_cons_self, List.splitOn_eq_singleton noSlash]
  have alone : file.splitOn '/' = [] ++ [file] := List.splitOn_eq_singleton noSlash
  cases outer with
  | nil =>
    have found := exists_parent_of_slash text alone isStep
    exact found
  | cons c front =>
    by_cases slash : c = '/'
    · subst slash
      rw [splitOn_slash_cons, List.filterMap_cons_none (by rfl)]
      exact exists_parent_of_slash text (behind front) isStep
    · by_cases dot : c = '.' ∧ (front = [] ∨ front.head? = some '/')
      · obtain ⟨rfl, rfl | slashed⟩ := dot
        · have found := exists_parent_of_dot text alone isStep
          exact found
        · obtain ⟨inner, rfl⟩ := List.head?_eq_some_iff.mp slashed
          have split : ('.' :: '/' :: inner).splitOn '/' = ['.'] :: inner.splitOn '/' :=
            List.splitOn_append_cons_self_of_not_mem (by decide : '/' ∉ ['.']) inner
          rw [split, List.filterMap_cons_none (by rfl)]
          exact exists_parent_of_dot text (behind inner) isStep
      · have anchored : path.anchor = [] := by
          rw [anchor, text]
          split
          next starts => exact absurd (List.cons.inj starts).1 slash
          next alone => simp at alone
          next starts =>
            obtain ⟨isDot, later⟩ := List.cons.inj starts
            refine absurd ⟨isDot, ?_⟩ dot
            cases front with
            | nil => exact .inl rfl
            | cons d front => exact .inr (congrArg some (List.cons.inj later).1)
          next => rfl
        exact exists_parent_of_name text slash anchored (behind (c :: front)) isStep

end Typescribe.Path
