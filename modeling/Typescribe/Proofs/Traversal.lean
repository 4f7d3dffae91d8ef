import Mathlib.Data.List.Forall2
import Typescribe.Generation.Error

/-!
# Computations that can fail

How a computation and a traversal succeed and fail, stated for `Except`. Success of a traversal is
success at every element, and its failure is the failure of one of them.
-/

namespace Typescribe

variable {ε α β γ : Type}

/-- A step after a computation succeeds if both do. -/
theorem bind_eq_ok {first : Except ε α} {next : α → Except ε β} {result : β} :
    first >>= next = .ok result ↔ ∃ value, first = .ok value ∧ next value = .ok result := by
  cases first with
  | error fault => simp [bind, Except.bind]
  | ok value => simp [bind, Except.bind]

/-- A step after a computation fails if one of them does. -/
theorem bind_eq_error {first : Except ε α} {next : α → Except ε β} {fault : ε} :
    first >>= next = .error fault ↔
      first = .error fault ∨ ∃ value, first = .ok value ∧ next value = .error fault := by
  cases first with
  | error other => simp [bind, Except.bind]
  | ok value => simp [bind, Except.bind]

theorem pure_eq_ok {value result : α} : (pure value : Except ε α) = .ok result ↔ value = result :=
  ⟨Except.ok.inj, congrArg Except.ok⟩

theorem pure_ne_error {value : α} {fault : ε} : (pure value : Except ε α) ≠ .error fault :=
  fun impossible => by cases impossible

/-- Mapping what a computation gives decides nothing about its success. -/
theorem exists_bind_pure {first : Except ε α} {next : α → β} :
    (∃ result, (first >>= fun value => pure (next value)) = .ok result) ↔
      ∃ value, first = .ok value := by
  cases first with
  | error fault => simp [bind, Except.bind]
  | ok value => exact ⟨fun _ => ⟨value, rfl⟩, fun _ => ⟨next value, rfl⟩⟩

/-- A traversal gives the results element by element. -/
theorem mapM_eq_ok {step : α → Except ε β} {items : List α} {results : List β} :
    items.mapM step = .ok results ↔
      List.Forall₂ (fun item result => step item = .ok result) items results := by
  induction items generalizing results with
  | nil =>
    rw [List.mapM_nil, List.forall₂_nil_left_iff]
    exact pure_eq_ok.trans eq_comm
  | cons item rest ih =>
    rw [List.mapM_cons, bind_eq_ok, List.forall₂_cons_left_iff]
    constructor
    · rintro ⟨result, head, later⟩
      obtain ⟨others, tail, same⟩ := bind_eq_ok.mp later
      exact ⟨result, others, head, ih.mp tail, (pure_eq_ok.mp same).symm⟩
    · rintro ⟨result, others, head, tail, rfl⟩
      exact ⟨result, head, bind_eq_ok.mpr ⟨others, ih.mpr tail, rfl⟩⟩

/-- A traversal succeeds if every element does. -/
theorem exists_mapM_eq_ok {step : α → Except ε β} {items : List α} :
    (∃ results, items.mapM step = .ok results) ↔
      ∀ item ∈ items, ∃ result, step item = .ok result := by
  simp only [mapM_eq_ok]
  induction items with
  | nil => simp
  | cons item rest ih =>
    rw [List.forall_mem_cons, ← ih]
    constructor
    · rintro ⟨results, all⟩
      obtain ⟨result, others, head, tail, -⟩ := List.forall₂_cons_left_iff.mp all
      exact ⟨⟨result, head⟩, others, tail⟩
    · rintro ⟨⟨result, head⟩, others, tail⟩
      exact ⟨result :: others, .cons head tail⟩

/-- A traversal fails as one of its elements does. -/
theorem exists_error_of_mapM {step : α → Except ε β} {items : List α} {fault : ε}
    (failed : items.mapM step = .error fault) : ∃ item ∈ items, step item = .error fault := by
  induction items with
  | nil => exact absurd failed pure_ne_error
  | cons item rest ih =>
    rw [List.mapM_cons, bind_eq_error] at failed
    rcases failed with head | ⟨result, -, later⟩
    · exact ⟨item, List.mem_cons_self, head⟩
    · rcases bind_eq_error.mp later with tail | ⟨others, -, impossible⟩
      · obtain ⟨other, member, fails⟩ := ih tail
        exact ⟨other, List.mem_cons_of_mem item member, fails⟩
      · exact absurd impossible pure_ne_error

/-- What can be told of a result from its element can be told of all results from all
elements. -/
theorem map_eq_of_mapM {step : α → Except ε β} {items : List α} {results : List β}
    {observe : β → γ} {view : α → γ} (done : items.mapM step = .ok results)
    (agree : ∀ item ∈ items, ∀ result, step item = .ok result → observe result = view item) :
    results.map observe = items.map view := by
  rw [mapM_eq_ok] at done
  induction done with
  | nil => rfl
  | cons head _ ih =>
    obtain ⟨agreeHead, agreeTail⟩ := List.forall_mem_cons.mp agree
    rw [List.map_cons, List.map_cons, agreeHead _ head, ih agreeTail]

theorem flatMap_eq_of_mapM {step : α → Except ε β} {items : List α} {results : List β}
    {observe : β → List γ} {view : α → List γ} (done : items.mapM step = .ok results)
    (agree : ∀ item ∈ items, ∀ result, step item = .ok result → observe result = view item) :
    results.flatMap observe = items.flatMap view := by
  rw [List.flatMap_def, List.flatMap_def, map_eq_of_mapM done agree]

/-- Every result of a traversal comes from an element. -/
theorem exists_of_mem_mapM {step : α → Except ε β} {items : List α} {results : List β}
    (done : items.mapM step = .ok results) {result : β} (member : result ∈ results) :
    ∃ item ∈ items, step item = .ok result := by
  rw [mapM_eq_ok] at done
  induction done with
  | nil => exact absurd member List.not_mem_nil
  | cons head _ ih =>
    rcases List.mem_cons.mp member with rfl | member
    · exact ⟨_, List.mem_cons_self, head⟩
    · obtain ⟨item, listed, gives⟩ := ih member
      exact ⟨item, List.mem_cons_of_mem _ listed, gives⟩

/-- Every element of a traversal gives a result. -/
theorem exists_mem_of_mapM {step : α → Except ε β} {items : List α} {results : List β}
    (done : items.mapM step = .ok results) {item : α} (member : item ∈ items) :
    ∃ result ∈ results, step item = .ok result := by
  rw [mapM_eq_ok] at done
  induction done with
  | nil => exact absurd member List.not_mem_nil
  | cons head _ ih =>
    rcases List.mem_cons.mp member with rfl | member
    · exact ⟨_, List.mem_cons_self, head⟩
    · obtain ⟨result, listed, gives⟩ := ih member
      exact ⟨result, List.mem_cons_of_mem _ listed, gives⟩

/-- The results of a traversal are exactly what its elements give. -/
theorem mem_mapM_iff {step : α → Except ε β} {items : List α} {results : List β}
    (done : items.mapM step = .ok results) {result : β} :
    result ∈ results ↔ ∃ item ∈ items, step item = .ok result := by
  constructor
  · exact exists_of_mem_mapM done
  · rintro ⟨item, member, gives⟩
    obtain ⟨other, listed, givesOther⟩ := exists_mem_of_mapM done member
    rw [gives, Except.ok.injEq] at givesOther
    exact givesOther ▸ listed

/-- Two computations that fail for the same reason, or succeed with related results. -/
inductive EndAlike (relates : α → β → Prop) : Except ε α → Except ε β → Prop where
  | ok {first : α} {second : β} (related : relates first second) :
      EndAlike relates (.ok first) (.ok second)
  | error (fault : ε) : EndAlike relates (.error fault) (.error fault)

namespace EndAlike

theorem refl (computation : Except ε α) : EndAlike Eq computation computation := by
  cases computation with
  | error fault => exact .error fault
  | ok value => exact .ok rfl

theorem isOk_eq {relates : α → β → Prop} {first : Except ε α} {second : Except ε β}
    (alike : EndAlike relates first second) : second.isOk = first.isOk := by
  cases alike <;> rfl

theorem error_or_ok {relates : α → β → Prop} {first : Except ε α} {second : Except ε β}
    (alike : EndAlike relates first second) :
    (∃ fault, first = .error fault ∧ second = .error fault) ∨
      ∃ value other, first = .ok value ∧ second = .ok other ∧ relates value other := by
  cases alike with
  | error fault => exact .inl ⟨fault, rfl, rfl⟩
  | ok related => exact .inr ⟨_, _, rfl, rfl, related⟩

theorem bind {δ : Type} {relates : α → β → Prop} {relatesThen : γ → δ → Prop}
    {first : Except ε α} {second : Except ε β} {next : α → Except ε γ} {other : β → Except ε δ}
    (alike : EndAlike relates first second)
    (alikeThen : ∀ {value result}, relates value result →
      EndAlike relatesThen (next value) (other result)) :
    EndAlike relatesThen (first >>= next) (second >>= other) := by
  cases alike with
  | error fault => exact .error fault
  | ok related => exact alikeThen related

/-- Traversals are alike if they are alike at every element. -/
theorem mapM {δ : Type} {relates : β → δ → Prop} {items : List α} {step : α → Except ε β}
    {other : γ → Except ε δ} {convert : α → γ}
    (alike : ∀ item ∈ items, EndAlike relates (step item) (other (convert item))) :
    EndAlike (List.Forall₂ relates) (items.mapM step) ((items.map convert).mapM other) := by
  induction items with
  | nil => exact .ok .nil
  | cons item rest ih =>
    obtain ⟨head, tail⟩ := List.forall_mem_cons.mp alike
    rw [List.map_cons, List.mapM_cons, List.mapM_cons]
    exact head.bind fun here => (ih tail).bind fun later => .ok (.cons here later)

end EndAlike

/-- Two requests with the same answer that leave related states. -/
def Agree {σ τ : Type} (relates : σ → τ → Prop) (first : α × σ) (second : α × τ) : Prop :=
  second.1 = first.1 ∧ relates first.2 second.2

theorem Agree.exists_answer {σ τ : Type} {relates : σ → τ → Prop} {first : α × σ}
    {second : α × τ} (agree : Agree relates first second) :
    ∃ answer state other, first = (answer, state) ∧ second = (answer, other) ∧
      relates state other :=
  ⟨first.1, first.2, second.2, rfl, Prod.ext agree.1 rfl, agree.2⟩

end Typescribe
