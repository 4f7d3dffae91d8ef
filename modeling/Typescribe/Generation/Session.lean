import Typescribe.Generation.References
import Typescribe.Generation.ServiceModule
import Typescribe.Generation.TypeModule

/-!
# Generation sessions

A session takes schema files in order and writes their modules to a store. A step that fails
leaves the session as far as it came: what was registered, written and recorded before the failure
stays.
-/

namespace Typescribe

open TypeScript

/-- The state of a generation run. -/
structure Session (σ : Type) where
  store : σ
  known : KnownTypes := KnownTypes.initial
  references : References := {}
  /-- The files generated so far, in order of first generation. A file written at any point counts
  as written. -/
  outputs : List (Path × WriteOutcome) := []

/-- A placeholder left in a generated file. -/
structure UnresolvedReference where
  file : String
  type : TypeName
  deriving DecidableEq, Repr

/-- How reports describe a placeholder that is left. -/
def UnresolvedReference.text (reference : UnresolvedReference) : String :=
  reference.file ++ ": unresolved reference to " ++ reference.type.text

/-- What a run came to. Files are named as reports show them. -/
structure Summary where
  written : List String := []
  unchanged : List String := []
  unresolved : List UnresolvedReference := []
  deriving DecidableEq, Repr

/-- Whether every reference was resolved. -/
def Summary.isComplete (summary : Summary) : Bool :=
  summary.unresolved.isEmpty

/-- The result of a step, and the session as the step left it. -/
abbrev Outcome (σ α : Type) := Except GenerationError α × Session σ

namespace Session

/-- A list of outputs with the outcome of one more write. -/
def noteOutput (path : Path) (outcome : WriteOutcome) :
    List (Path × WriteOutcome) → List (Path × WriteOutcome)
  | [] => [(path, outcome)]
  | entry :: rest =>
    if entry.1.same path then
      (entry.1, if outcome = .written then .written else entry.2) :: rest
    else
      entry :: noteOutput path outcome rest

variable {σ : Type}

/-- Notes that a file was generated. -/
def note (session : Session σ) (path : Path) (outcome : WriteOutcome) : Session σ :=
  { session with outputs := noteOutput path outcome session.outputs }

/-- Does one step for each element of a list, up to the first failure. -/
def forEach {α : Type} (step : Session σ → α → Outcome σ Unit) :
    Session σ → List α → Outcome σ Unit
  | session, [] => (.ok (), session)
  | session, item :: rest =>
    match step session item with
    | (.ok (), session) => forEach step session rest
    | (.error reason, session) => (.error reason, session)

variable [Store σ]

/-- Writes a module to a path unless exactly that is there. -/
def write (session : Session σ) (path : Path) (item : Module) : Outcome σ Unit :=
  match Store.writeIfChanged session.store path item.render with
  | (.error fault, store) => (.error (.write path fault), { session with store })
  | (.ok outcome, store) => (.ok (), { session with store }.note path outcome)

/-- Generates the module of a top-level record or enumeration. -/
def emitType (session : Session σ) (declaration : Declaration) : Outcome σ Unit :=
  let left := session.known.placeholdersOf declaration.flatten
  let session := { session with references := session.references.insertAll left }
  match session.known.typeModule declaration with
  | .error reason => (.error reason, session)
  | .ok item =>
    let path := declaration.type.moduleFile
    match session.write path item with
    | (.error reason, session) => (.error reason, session)
    | (.ok (), session) =>
      (.ok (), { session with references := session.references.setModule declaration.type path })

/-- Generates the module of a service, and the network client's interface beside it. -/
def emitService (session : Session σ) (service : Service) : Outcome σ Unit :=
  match session.known.serviceModule service with
  | .error reason => (.error reason, session)
  | .ok item =>
    match session.write service.type.moduleFile item with
    | (.error reason, session) => (.error reason, session)
    | (.ok (), session) =>
      session.write (Service.clientFile service.type) Service.clientModule

/-- Replaces the placeholders of types that have become known. -/
def patch (session : Session σ) (newTypes : List Declaration) : Outcome σ Unit :=
  match session.references.resolve newTypes session.store with
  | (.error reason, store) => (.error reason, { session with store })
  | (.ok changed, store) =>
    (.ok (), changed.foldl (fun session path => session.note path .written)
      { session with store })

/-- Takes one schema file: registers everything it declares, generates the modules of its new
top-level types and then those of its new services, and replaces the placeholders of its types in
all modules. -/
def processFile (session : Session σ) (file : SchemaFile) : Outcome σ Unit :=
  let registration := session.known.register file.declarations
  let roots : SchemaFile := { file with declarations := registration.newRoots }
  let session := { session with known := registration.known }
  match session.forEach emitType roots.dataTypes with
  | (.error reason, session) => (.error reason, session)
  | (.ok (), session) =>
    match session.forEach emitService roots.services with
    | (.error reason, session) => (.error reason, session)
    | (.ok (), session) => session.patch registration.newTypes

/-- Takes schema files in order, up to the first failure. -/
def processFiles (session : Session σ) (files : List SchemaFile) : Outcome σ Unit :=
  session.forEach processFile files

/-- The summary of a list of outputs. -/
def summarize (store : σ) : List (Path × WriteOutcome) → Except GenerationError Summary
  | [] => .ok {}
  | (path, outcome) :: rest =>
    match Store.read store path with
    | .error fault => .error (.read path fault)
    | .ok text =>
      match summarize store rest with
      | .error reason => .error reason
      | .ok later =>
        let left := (Placeholder.residual text).map fun type => ⟨path.shown, type⟩
        match outcome with
        | .written =>
          .ok { later with
            written := path.shown :: later.written, unresolved := left ++ later.unresolved }
        | .unchanged =>
          .ok { later with
            unchanged := path.shown :: later.unchanged, unresolved := left ++ later.unresolved }

/-- What the run came to so far: every generated file, and every placeholder that is left in
one. -/
def finish (session : Session σ) : Except GenerationError Summary :=
  summarize session.store session.outputs

end Session

end Typescribe
