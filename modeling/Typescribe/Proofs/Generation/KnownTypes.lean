import Typescribe.Proofs.Schema.WellFormed

/-!
# What is known after registration

Registering declarations of types that are all new adds exactly these declarations, each with what
is nested in it. So after a well-formed list has been registered, the timestamp and the declared
types are known and nothing else.
-/

namespace Typescribe

namespace KnownTypes

variable {known : KnownTypes} {type : TypeName} {declaration : Declaration}
  {roots first second : List Declaration}

theorem contains_iff :
    known.contains type = true ↔ ∃ declaration ∈ known.declarations, declaration.type = type := by
  rw [contains, find?, List.find?_isSome]
  simp

theorem find?_eq_none_iff : known.find? type = none ↔ known.contains type = false := by
  rw [contains, Option.isSome_eq_false_iff, Option.isNone_iff_eq_none]

theorem contains_of_find?_eq_some
    (found : known.find? type = some declaration) : known.contains type = true := by
  rw [contains, found]
  rfl

/-- Declarations of types that are all new are added one after the other. -/
theorem addAll_eq {declarations : List Declaration}
    (distinct : ((known.declarations ++ declarations).map Declaration.type).Nodup) :
    known.addAll declarations = (⟨known.declarations ++ declarations⟩, declarations) := by
  induction declarations generalizing known with
  | nil => rw [addAll, List.append_nil]
  | cons declaration rest ih =>
    have absent : known.contains declaration.type = false := by
      rw [← Bool.not_eq_true, contains_iff]
      rintro ⟨earlier, member, same⟩
      rw [List.map_append, List.map_cons, List.nodup_append] at distinct
      exact distinct.2.2 _ (List.mem_map_of_mem member) _ List.mem_cons_self same
    have added : known.add declaration = ⟨known.declarations ++ [declaration]⟩ := by
      rw [add, absent]
      rfl
    rw [List.append_cons] at distinct ⊢
    rw [addAll, added, ih distinct, absent]
    rfl

/-- Registering declarations of types that are all new adds everything they hold. -/
theorem register_eq
    (distinct :
      ((known.declarations ++ Declaration.flattenAll roots).map Declaration.type).Nodup) :
    known.register roots =
      { known := ⟨known.declarations ++ Declaration.flattenAll roots⟩
        newTypes := Declaration.flattenAll roots
        newRoots := roots } := by
  induction roots generalizing known with
  | nil => rw [register, Declaration.flattenAll, List.append_nil]
  | cons root rest ih =>
    rw [Declaration.flattenAll, ← List.append_assoc] at distinct ⊢
    have distinctRoot : ((known.declarations ++ root.flatten).map Declaration.type).Nodup := by
      rw [List.map_append] at distinct
      exact (List.nodup_append.mp distinct).1
    have absent : known.contains root.type = false := by
      rw [← Bool.not_eq_true, contains_iff]
      rintro ⟨earlier, member, same⟩
      rw [List.map_append, List.nodup_append] at distinctRoot
      exact distinctRoot.2.2 _ (List.mem_map_of_mem member) _
        (List.mem_map_of_mem root.self_mem_flatten) same
    rw [register, addAll_eq distinctRoot]
    dsimp only
    rw [ih distinct, absent]
    rfl

/-- What is found stays found when the table grows. -/
theorem find?_of_grown {later : KnownTypes} {more : List Declaration}
    (grown : later.declarations = known.declarations ++ more)
    (found : known.find? type = some declaration) : later.find? type = some declaration := by
  rw [find?] at found ⊢
  rw [grown, List.find?_append, found, Option.some_or]

theorem contains_of_grown {later : KnownTypes} {more : List Declaration}
    (grown : later.declarations = known.declarations ++ more)
    (contained : known.contains type = true) : later.contains type = true := by
  obtain ⟨declaration, found⟩ := Option.isSome_iff_exists.mp contained
  exact contains_of_find?_eq_some (find?_of_grown grown found)

/-- Where no type is listed twice, each declaration is the one that is found for its type. -/
theorem find?_of_mem (distinct : (known.declarations.map Declaration.type).Nodup)
    (listed : declaration ∈ known.declarations) :
    known.find? declaration.type = some declaration := by
  cases found : known.find? declaration.type with
  | none =>
    rw [find?_eq_none_iff, ← Bool.not_eq_true] at found
    exact absurd (contains_iff.mpr ⟨declaration, listed, rfl⟩) found
  | some other =>
    have same : other.type = declaration.type := by
      simpa using List.find?_some found
    have otherListed := List.mem_of_find?_eq_some found
    rw [List.inj_on_of_nodup_map distinct otherListed listed same]

/-- Adding declarations appends those that were new. -/
theorem declarations_addAll (known : KnownTypes) (declarations : List Declaration) :
    (known.addAll declarations).1.declarations =
      known.declarations ++ (known.addAll declarations).2 := by
  induction declarations generalizing known with
  | nil => rw [addAll, List.append_nil]
  | cons declaration rest ih =>
    rw [addAll]
    dsimp only
    rw [ih, add]
    split
    · rfl
    · rw [List.append_assoc, List.singleton_append]

/-- Only declarations of unknown types are added. -/
theorem of_mem_addAll {declarations : List Declaration}
    (fresh : declaration ∈ (known.addAll declarations).2) :
    declaration ∈ declarations ∧ known.contains declaration.type = false := by
  induction declarations generalizing known with
  | nil => exact absurd fresh List.not_mem_nil
  | cons first rest ih =>
    have later : declaration ∈ ((known.add first).addAll rest).2 →
        declaration ∈ first :: rest ∧ known.contains declaration.type = false := by
      intro fresh
      obtain ⟨member, unknown⟩ := ih fresh
      rw [← Bool.not_eq_true] at unknown ⊢
      exact ⟨List.mem_cons_of_mem first member,
        mt (contains_of_grown (declarations_addAll known [first])) unknown⟩
    rw [addAll] at fresh
    dsimp only at fresh
    split at fresh
    · exact later fresh
    next unknown =>
      rcases List.mem_cons.mp fresh with rfl | fresh
      · exact ⟨List.mem_cons_self, Bool.not_eq_true _ ▸ unknown⟩
      · exact later fresh

/-- No type is added twice. -/
theorem nodup_addAll (distinct : (known.declarations.map Declaration.type).Nodup)
    (declarations : List Declaration) :
    ((known.addAll declarations).1.declarations.map Declaration.type).Nodup := by
  induction declarations generalizing known with
  | nil => exact distinct
  | cons first rest ih =>
    rw [addAll]
    refine ih ?_
    rw [add]
    split
    · exact distinct
    next unknown =>
      rw [List.map_append, List.nodup_append]
      refine ⟨distinct, List.nodup_singleton _, fun type listed other isFirst same => ?_⟩
      obtain ⟨declaration, member, isType⟩ := List.mem_map.mp listed
      rw [List.map_singleton, List.mem_singleton] at isFirst
      exact unknown (contains_iff.mpr ⟨declaration, member, isType.trans (same.trans isFirst)⟩)

theorem nodup_register (distinct : (known.declarations.map Declaration.type).Nodup)
    (roots : List Declaration) :
    ((known.register roots).known.declarations.map Declaration.type).Nodup := by
  induction roots generalizing known with
  | nil => exact distinct
  | cons root rest ih => exact ih (nodup_addAll distinct root.flatten)

/-- A declaration of an unknown type is the one that is found from then on. -/
theorem find?_addAll_cons (unknown : known.contains declaration.type = false)
    (rest : List Declaration) :
    (known.addAll (declaration :: rest)).1.find? declaration.type = some declaration := by
  have absent := find?_eq_none_iff.mpr unknown
  have added : (known.add declaration).find? declaration.type = some declaration := by
    rw [find?] at absent
    rw [add, if_neg (Bool.not_eq_true _ ▸ unknown), find?, List.find?_append, absent]
    simp
  exact find?_of_grown (declarations_addAll (known.add declaration) rest) added

/-- Registering declarations appends those that were new. -/
theorem declarations_register (known : KnownTypes) (roots : List Declaration) :
    (known.register roots).known.declarations =
      known.declarations ++ (known.register roots).newTypes := by
  induction roots generalizing known with
  | nil => rw [register, List.append_nil]
  | cons root rest ih =>
    rw [register]
    dsimp only
    rw [ih, declarations_addAll, List.append_assoc]

/-- Every registered type is known, whichever declaration of it counts. -/
theorem exists_find?_register (declared : declaration ∈ roots) :
    ∃ counting, (known.register roots).known.find? declaration.type = some counting := by
  induction roots generalizing known with
  | nil => exact absurd declared List.not_mem_nil
  | cons first rest ih =>
    rcases List.mem_cons.mp declared with rfl | declared
    · obtain ⟨counting, found⟩ : ∃ counting,
          (known.addAll declaration.flatten).1.find? declaration.type = some counting := by
        cases found : known.find? declaration.type with
        | some earlier => exact ⟨earlier, find?_of_grown (declarations_addAll known _) found⟩
        | none =>
          obtain ⟨inner, parts⟩ := declaration.exists_flatten_eq
          rw [parts]
          exact ⟨declaration, find?_addAll_cons (find?_eq_none_iff.mp found) inner⟩
      exact ⟨counting, find?_of_grown (declarations_register _ rest) found⟩
    · exact ih declared

/-- A new type is part of a registered declaration, and of a new one if it is itself registered at
the top level. -/
theorem of_mem_newTypes (isNew : declaration ∈ (known.register roots).newTypes) :
    ∃ root ∈ roots, declaration ∈ root.flatten ∧
      (declaration = root → declaration ∈ (known.register roots).newRoots) := by
  induction roots generalizing known with
  | nil => exact absurd isNew List.not_mem_nil
  | cons first rest ih =>
    rw [register] at isNew ⊢
    dsimp only at isNew ⊢
    rcases List.mem_append.mp isNew with fresh | later
    · obtain ⟨inside, unknown⟩ := of_mem_addAll fresh
      refine ⟨first, List.mem_cons_self, inside, ?_⟩
      rintro rfl
      rw [if_neg (Bool.not_eq_true _ ▸ unknown)]
      exact List.mem_cons_self
    · obtain ⟨root, member, inside, isRoot⟩ := ih later
      refine ⟨root, List.mem_cons_of_mem first member, inside, fun same => ?_⟩
      split
      · exact isRoot same
      · exact List.mem_cons_of_mem first (isRoot same)

/-- A new top-level declaration is one of those registered, and the one that is found for its
type. -/
theorem of_mem_newRoots (isNew : declaration ∈ (known.register roots).newRoots) :
    declaration ∈ roots ∧
      (known.register roots).known.find? declaration.type = some declaration := by
  induction roots generalizing known with
  | nil => exact absurd isNew List.not_mem_nil
  | cons first rest ih =>
    rw [register] at isNew ⊢
    dsimp only at isNew ⊢
    have later : declaration ∈ ((known.addAll first.flatten).1.register rest).newRoots →
        declaration ∈ first :: rest ∧ ((known.addAll first.flatten).1.register rest).known.find?
          declaration.type = some declaration := fun isNew =>
      ⟨List.mem_cons_of_mem first (ih isNew).1, (ih isNew).2⟩
    split at isNew
    · exact later isNew
    next unknown =>
      rcases List.mem_cons.mp isNew with rfl | isNew
      · refine ⟨List.mem_cons_self, find?_of_grown (declarations_register _ rest) ?_⟩
        obtain ⟨inner, parts⟩ := declaration.exists_flatten_eq
        rw [parts]
        exact find?_addAll_cons (Bool.not_eq_true _ ▸ unknown) inner
      · exact later isNew

/-- A new top-level declaration is of an unknown type. -/
theorem unknown_of_mem_newRoots (isNew : declaration ∈ (known.register roots).newRoots) :
    known.contains declaration.type = false := by
  induction roots generalizing known with
  | nil => exact absurd isNew List.not_mem_nil
  | cons first rest ih =>
    have later : declaration ∈ ((known.addAll first.flatten).1.register rest).newRoots →
        known.contains declaration.type = false := by
      intro isNew
      have unknown := ih isNew
      rw [← Bool.not_eq_true] at unknown ⊢
      exact mt (contains_of_grown (declarations_addAll known first.flatten)) unknown
    rw [register] at isNew
    dsimp only at isNew
    split at isNew
    · exact later isNew
    next unknown =>
      rcases List.mem_cons.mp isNew with rfl | isNew
      · exact Bool.not_eq_true _ ▸ unknown
      · exact later isNew

/-- New top-level declarations are of different types. -/
theorem pairwise_newRoots (known : KnownTypes) (roots : List Declaration) :
    (known.register roots).newRoots.Pairwise fun first second => first.type ≠ second.type := by
  induction roots generalizing known with
  | nil => exact List.Pairwise.nil
  | cons root rest ih =>
    rw [register]
    dsimp only
    split
    · exact ih _
    next unknown =>
      refine List.pairwise_cons.mpr ⟨fun other isNew same => ?_, ih _⟩
      have unknownThen := unknown_of_mem_newRoots isNew
      obtain ⟨inner, parts⟩ := root.exists_flatten_eq
      rw [parts, ← same, ← Bool.not_eq_true] at unknownThen
      exact unknownThen (contains_of_find?_eq_some
        (find?_addAll_cons (Bool.not_eq_true _ ▸ unknown) inner))

/-- The table that holds the timestamp and everything that the given declarations declare. -/
def knowing (roots : List Declaration) : KnownTypes :=
  ⟨initial.declarations ++ Declaration.flattenAll roots⟩

theorem knowing_nil : knowing [] = initial := by
  rw [knowing, Declaration.flattenAll, List.append_nil]

theorem declarations_knowing_append (first second : List Declaration) :
    (knowing (first ++ second)).declarations =
      (knowing first).declarations ++ Declaration.flattenAll second := by
  rw [knowing, knowing, Declaration.flattenAll_append, ← List.append_assoc]

theorem contains_knowing_iff :
    (knowing roots).contains type = true ↔
      type = timestamp ∨ ∃ declaration ∈ Declaration.flattenAll roots, declaration.type = type := by
  rw [contains_iff, knowing, initial]
  simp only [List.singleton_append, List.mem_cons, exists_eq_or_imp]
  exact or_congr_left eq_comm

/-- More declarations make no type unknown. -/
theorem contains_knowing_append
    (contained : (knowing roots).contains type = true) (more : List Declaration) :
    (knowing (roots ++ more)).contains type = true :=
  contains_of_grown (declarations_knowing_append roots more) contained

/-- What only more declarations make known is one of them. -/
theorem exists_new_of_contains {more : List Declaration}
    (unknown : (knowing roots).contains type = false)
    (contained : (knowing (roots ++ more)).contains type = true) :
    ∃ declaration ∈ Declaration.flattenAll more, declaration.type = type := by
  rw [contains_knowing_iff, Declaration.flattenAll_append] at contained
  rw [← Bool.not_eq_true, contains_knowing_iff, not_or] at unknown
  rcases contained with isTimestamp | ⟨declaration, declared, same⟩
  · exact absurd isTimestamp unknown.1
  · have isNew := (List.mem_append.mp declared).resolve_left fun isOld =>
      unknown.2 ⟨declaration, isOld, same⟩
    exact ⟨declaration, isNew, same⟩

theorem find?_knowing_timestamp (roots : List Declaration) :
    (knowing roots).find? timestamp = some (.record { type := timestamp } []) := rfl

/-- What is found is the timestamp or a declared type. -/
theorem find?_knowing_cases (found : (knowing roots).find? type = some declaration) :
    type = timestamp ∧ declaration = .record { type := timestamp } [] ∨
      declaration ∈ Declaration.flattenAll roots ∧ declaration.type = type := by
  have same : declaration.type = type := by
    simpa using List.find?_some found
  have listed := List.mem_of_find?_eq_some found
  rw [knowing, initial, List.singleton_append, List.mem_cons] at listed
  rcases listed with rfl | declared
  · exact .inl ⟨same.symm, rfl⟩
  · exact .inr ⟨declared, same⟩

/-- What is found stays found when more is declared. -/
theorem find?_knowing_append (found : (knowing first).find? type = some declaration)
    (second : List Declaration) : (knowing (first ++ second)).find? type = some declaration :=
  find?_of_grown (declarations_knowing_append first second) found

end KnownTypes

namespace WellFormed

variable {roots first second : List Declaration} {type : TypeName} {declaration : Declaration}

open KnownTypes

theorem knowing_distinct (wellFormed : WellFormed roots) :
    ((knowing roots).declarations.map Declaration.type).Nodup := by
  have notTimestamp : timestamp ∉ (Declaration.flattenAll roots).map Declaration.type := by
    intro listed
    obtain ⟨declaration, declared, same⟩ := List.mem_map.mp listed
    exact wellFormed.notTimestamp declaration declared same
  exact List.nodup_cons.mpr ⟨notTimestamp, wellFormed.distinct⟩

/-- Registering the next declarations of a well-formed list adds all of them. -/
theorem register_knowing (wellFormed : WellFormed (first ++ second)) :
    (knowing first).register second =
      { known := knowing (first ++ second)
        newTypes := Declaration.flattenAll second
        newRoots := second } := by
  have grown : knowing (first ++ second) =
      ⟨(knowing first).declarations ++ Declaration.flattenAll second⟩ :=
    congrArg KnownTypes.mk (declarations_knowing_append first second)
  have distinct := wellFormed.knowing_distinct
  rw [grown] at distinct ⊢
  exact register_eq distinct

/-- Registering all declarations at once makes all of them known. -/
theorem register_initial (wellFormed : WellFormed roots) :
    (initial.register roots).known = knowing roots := by
  have whole : WellFormed ([] ++ roots) := wellFormed
  rw [← knowing_nil, whole.register_knowing, List.nil_append]

/-- What is declared later is not known before. -/
theorem not_contains_knowing (wellFormed : WellFormed (first ++ second))
    (declared : declaration ∈ Declaration.flattenAll second) :
    (knowing first).contains declaration.type = false := by
  have distinct := wellFormed.knowing_distinct
  rw [declarations_knowing_append, List.map_append, List.nodup_append] at distinct
  rw [← Bool.not_eq_true, contains_iff]
  rintro ⟨earlier, listed, same⟩
  exact distinct.2.2 _ (List.mem_map_of_mem listed) _ (List.mem_map_of_mem declared) same

theorem not_mem_of_mem_right (wellFormed : WellFormed (first ++ second)) {root : Declaration}
    (member : root ∈ second) : root ∉ first := by
  intro earlier
  have unknown := wellFormed.not_contains_knowing (Declaration.mem_flattenAll_of_mem member)
  rw [← Bool.not_eq_true, contains_knowing_iff] at unknown
  exact unknown (.inr ⟨root, Declaration.mem_flattenAll_of_mem earlier, rfl⟩)

/-- A declared type is found as it is declared. -/
theorem find?_knowing (wellFormed : WellFormed roots)
    (declared : declaration ∈ Declaration.flattenAll roots) :
    (knowing roots).find? declaration.type = some declaration :=
  find?_of_mem wellFormed.knowing_distinct (List.mem_append_right _ declared)

/-- The order of the declarations plays no part in what is found. -/
theorem find?_knowing_perm (wellFormed : WellFormed first) (perm : first.Perm second)
    (type : TypeName) : (knowing first).find? type = (knowing second).find? type := by
  have flatPerm : (Declaration.flattenAll first).Perm (Declaration.flattenAll second) := by
    simp only [Declaration.flattenAll_eq_flatMap]
    exact perm.flatMap_right Declaration.flatten
  cases found : (knowing first).find? type with
  | some declaration =>
    rcases find?_knowing_cases found with ⟨rfl, rfl⟩ | ⟨declared, rfl⟩
    · exact (find?_knowing_timestamp second).symm
    · exact ((wellFormed.perm perm).find?_knowing (flatPerm.mem_iff.mp declared)).symm
  | none =>
    rw [find?_eq_none_iff, ← Bool.not_eq_true, contains_knowing_iff] at found
    rw [eq_comm, find?_eq_none_iff, ← Bool.not_eq_true, contains_knowing_iff]
    simpa only [flatPerm.mem_iff] using found

end WellFormed

end Typescribe
