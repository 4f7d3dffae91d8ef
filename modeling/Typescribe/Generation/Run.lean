import Typescribe.Disk.Writing
import Typescribe.Generation.Session
import Typescribe.Store.Memory

/-!
# Whole runs

Schema files can be generated into a directory, previewed, and checked for references to types
that none of them declares. All three are the same run over different stores.
-/

namespace Typescribe

/-- The language that is generated. -/
def targetLanguage : String := "typescript"

/-- The extension of generated files. -/
def targetExtension : String := "ts"

/-- Takes schema files into a store and sums up. -/
def Session.run {σ : Type} [Store σ] (store : σ) (files : List SchemaFile) : Outcome σ Summary :=
  match Session.processFiles { store } files with
  | (.error reason, session) => (.error reason, session)
  | (.ok (), session) => (session.finish, session)

/-- A file as reports show it. -/
structure GeneratedFile where
  path : String
  content : String
  deriving DecidableEq, Repr

/-- The files that schema files generate. -/
def preview (files : List SchemaFile) : Except GenerationError (List GeneratedFile) :=
  match Session.run ({} : MemoryStore) files with
  | (.error reason, _) => .error reason
  | (.ok _, session) => .ok (session.store.files.map fun file => ⟨file.1.shown, file.2⟩)

/-- What a check came to. -/
structure CheckResult where
  schemaCount : Nat
  /-- The number of declared types, nested ones included. -/
  typeCount : Nat
  /-- The number of files that would be generated. -/
  fileCount : Nat
  /-- The references to types that are not declared. -/
  unresolved : List UnresolvedReference
  deriving DecidableEq, Repr

/-- Whether every reference was resolved. -/
def CheckResult.isValid (result : CheckResult) : Bool :=
  result.unresolved.isEmpty

/-- Checks schema files. -/
def check (files : List SchemaFile) : Except GenerationError CheckResult :=
  match Session.run ({} : MemoryStore) files with
  | (.error reason, _) => .error reason
  | (.ok summary, session) =>
    .ok
      { schemaCount := files.length
        typeCount := (files.flatMap SchemaFile.allTypes).length
        fileCount := session.store.files.length
        unresolved := summary.unresolved }

/-- Generates schema files into a directory of a disk. -/
def generate (disk : Disk) (dir : Path) (files : List SchemaFile) :
    Except GenerationError Summary × Disk :=
  match Session.run (DiskStore.mk disk dir) files with
  | (result, session) => (result, session.store.disk)

/-- Every file that generating schema files can read or write, seen from the output directory. -/
def possibleOutputs (files : List SchemaFile) : List Path :=
  files.flatMap fun file =>
    file.allTypes.map (fun declaration => declaration.type.moduleFile) ++
      file.services.map fun service => Service.clientFile service.type

end Typescribe
