import Typescribe.Proofs.Store

/-!
# What a summary lists

Summing up a memory store that holds every output succeeds. The outputs are listed in order, under
what each of them came to, with the tokens that its text holds.
-/

namespace Typescribe

variable {store : MemoryStore} {path : Path} {text : String}

theorem MemoryStore.read_eq_ok (held : store.get? path = some text) :
    Store.read store path = .ok text := by
  simp only [Store.read, held]

/-- The types whose tokens the text at a path holds, from left to right. -/
def MemoryStore.tokensAt (store : MemoryStore) (path : Path) : List TypeName :=
  ((store.get? path).map Placeholder.residual).getD []

theorem MemoryStore.tokensAt_eq (held : store.get? path = some text) :
    store.tokensAt path = Placeholder.residual text := by
  rw [tokensAt, held, Option.map_some, Option.getD_some]

namespace Session

/-- The outputs that came to the given end, as reports show them. -/
def listed (outcome : WriteOutcome) (outputs : List (Path × WriteOutcome)) : List String :=
  (outputs.filter fun output => output.2 = outcome).map fun output => output.1.shown

/-- What the outputs came to can be told from their paths. -/
theorem listed_eq {outcome : WriteOutcome} {outputs : List (Path × WriteOutcome)}
    {holds : Path → Bool} (agree : ∀ output ∈ outputs, output.2 = outcome ↔ holds output.1 = true) :
    listed outcome outputs = ((outputs.map Prod.fst).filter holds).map Path.shown := by
  rw [listed, List.filter_map, List.map_map]
  congr 1
  refine List.filter_congr fun output member => ?_
  rw [Function.comp_apply, Bool.eq_iff_iff, decide_eq_true_iff, agree output member]

/-- A summary lists the outputs and the tokens in them. -/
theorem summarize_eq_ok {outputs : List (Path × WriteOutcome)}
    (held : ∀ path ∈ outputs.map Prod.fst, (store.get? path).isSome = true) :
    summarize store outputs = .ok
      { written := listed .written outputs
        unchanged := listed .unchanged outputs
        unresolved := (outputs.map Prod.fst).flatMap fun path =>
          (store.tokensAt path).map fun type => ⟨path.shown, type⟩ } := by
  induction outputs with
  | nil => rfl
  | cons output rest ih =>
    obtain ⟨path, outcome⟩ := output
    obtain ⟨heldFirst, heldRest⟩ := List.forall_mem_cons.mp held
    obtain ⟨text, content⟩ := Option.isSome_iff_exists.mp heldFirst
    rw [summarize, MemoryStore.read_eq_ok content]
    dsimp only
    rw [ih heldRest, List.map_cons, List.flatMap_cons, MemoryStore.tokensAt_eq content]
    cases outcome with
    | written => rfl
    | unchanged => rfl

/-- A summary says what can be read of the outputs, wherever they are. -/
theorem summarize_congr {σ τ : Type} [Store σ] [Store τ] {first : σ} {second : τ}
    {outputs : List (Path × WriteOutcome)}
    (agree : ∀ path ∈ outputs.map Prod.fst, Store.read second path = Store.read first path) :
    summarize second outputs = summarize first outputs := by
  induction outputs with
  | nil => rfl
  | cons output rest ih =>
    obtain ⟨path, outcome⟩ := output
    obtain ⟨agreeFirst, agreeRest⟩ := List.forall_mem_cons.mp agree
    rw [summarize, summarize, agreeFirst, ih agreeRest]

end Session

end Typescribe
