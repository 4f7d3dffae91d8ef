import Typescribe.Path

/-!
# Stores of generated files

Generated files are written to a store and read back when references are patched. A store says
what it holds at a path; writing may fail, and then the store says what it is afterwards.
-/

namespace Typescribe

/-- Kinds of failures of a file system. -/
inductive FaultKind where
  | notFound
  | permissionDenied
  | isADirectory
  | notADirectory
  /-- A path that no file system takes. -/
  | invalidInput
  /-- A name that is too long. -/
  | invalidName
  | invalidData
  deriving DecidableEq, Repr

/-- Why a store cannot serve a request. -/
inductive StoreFault where
  /-- Nothing was ever written at the path. -/
  | neverWritten (path : Path)
  /-- The store refuses. -/
  | denied
  /-- The file system beneath the store fails. -/
  | disk (kind : FaultKind)
  deriving DecidableEq, Repr

namespace StoreFault

/-- The kind of a fault. -/
def kind : StoreFault → FaultKind
  | neverWritten _ => .notFound
  | denied => .permissionDenied
  | disk kind => kind

/-- What is said about a fault. -/
def message : StoreFault → String
  | neverWritten path => path.text ++ " was never written"
  | denied => "denied"
  | disk .notFound => "no such file or directory"
  | disk .permissionDenied => "permission denied"
  | disk .isADirectory => "is a directory"
  | disk .notADirectory => "not a directory"
  | disk .invalidInput => "file name contained an unexpected NUL byte"
  | disk .invalidName => "file name too long"
  | disk .invalidData => "stream did not contain valid UTF-8"

end StoreFault

/-- A place for generated files. -/
class Store (σ : Type) where
  /-- The text at a path. -/
  read : σ → Path → Except StoreFault String
  /-- Puts a text at a path. -/
  write : σ → Path → String → Except StoreFault Unit × σ
  /-- Whether there is something at a path. -/
  holds : σ → Path → Bool

/-- What writing a file came to. -/
inductive WriteOutcome where
  | written
  /-- The store already held exactly this text. -/
  | unchanged
  deriving DecidableEq, Repr

variable {σ : Type} [Store σ]

/-- Puts a text at a path, whatever is there. -/
def Store.overwrite (store : σ) (path : Path) (text : String) :
    Except StoreFault WriteOutcome × σ :=
  match Store.write store path text with
  | (.ok (), store) => (.ok .written, store)
  | (.error fault, store) => (.error fault, store)

/-- Puts a text at a path unless the store already holds exactly that text there. A file that
exists and cannot be read fails the request. -/
def Store.writeIfChanged (store : σ) (path : Path) (text : String) :
    Except StoreFault WriteOutcome × σ :=
  if Store.holds store path then
    match Store.read store path with
    | .error fault => (.error fault, store)
    | .ok current =>
      if current = text then (.ok .unchanged, store) else Store.overwrite store path text
  else
    Store.overwrite store path text

end Typescribe
