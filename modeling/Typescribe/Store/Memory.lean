import Typescribe.Store.Basic

/-!
# Stores in memory

A memory store keeps its files in the order in which they were first written, under the spelling
of the path that came first. A guarded store is a memory store in which single paths can be hidden
or locked.
-/

namespace Typescribe

/-- Files in memory, in the order in which they were first written. -/
structure MemoryStore where
  files : List (Path × String) := []
  deriving DecidableEq, Repr

namespace MemoryStore

/-- The text at a path. -/
def get? (store : MemoryStore) (path : Path) : Option String :=
  (store.files.find? fun file => file.1.same path).map Prod.snd

/-- A list of files with a text put at a path: in place of the text that is there, or else at the
end. -/
def putFile (path : Path) (text : String) : List (Path × String) → List (Path × String)
  | [] => [(path, text)]
  | file :: rest =>
    if file.1.same path then (file.1, text) :: rest else file :: putFile path text rest

/-- The store with a text put at a path. -/
def put (store : MemoryStore) (path : Path) (text : String) : MemoryStore :=
  ⟨putFile path text store.files⟩

instance : Store MemoryStore where
  read store path :=
    match store.get? path with
    | some text => .ok text
    | none => .error (.neverWritten path)
  write store path text := (.ok (), store.put path text)
  holds store path := (store.get? path).isSome

end MemoryStore

/-- What can be wrong with single paths of a guarded store. -/
inductive Guard where
  /-- The path seems to hold nothing, though it can be written. -/
  | hidden
  /-- The path cannot be read. -/
  | readDenied
  /-- The path cannot be written. -/
  | writeDenied
  deriving DecidableEq, Repr

/-- A memory store with guards on single paths. -/
structure GuardedStore where
  inner : MemoryStore := {}
  guards : List (Guard × Path) := []
  deriving DecidableEq, Repr

namespace GuardedStore

/-- Whether a path has a guard. -/
def guarded (store : GuardedStore) (guard : Guard) (path : Path) : Bool :=
  store.guards.any fun entry => entry.1 == guard && entry.2.same path

/-- Sets or lifts a guard on a path. -/
def setGuard (store : GuardedStore) (guard : Guard) (path : Path) (on : Bool) : GuardedStore :=
  let others := store.guards.filter fun entry => !(entry.1 == guard && entry.2.same path)
  { store with guards := if on then (guard, path) :: others else others }

instance : Store GuardedStore where
  read store path :=
    if store.guarded .readDenied path then .error .denied
    else if store.guarded .hidden path then .error (.neverWritten path)
    else Store.read store.inner path
  write store path text :=
    if store.guarded .writeDenied path then (.error .denied, store)
    else (.ok (), { store with inner := store.inner.put path text })
  holds store path := !store.guarded .hidden path && (store.inner.get? path).isSome

end GuardedStore

end Typescribe
