import Typescribe.Generation.KnownTypes
import Typescribe.Generation.Placeholder

/-!
# References that wait for their types

Which types left placeholders for which others, where the modules are, and how placeholders are
replaced once their types become known.
-/

namespace Typescribe

/-- The replacements for one file. -/
structure Patch where
  path : Path
  /-- The types whose tokens are replaced, with what takes their place. -/
  replacements : List (TypeName × String)
  deriving DecidableEq, Repr

namespace Patch

/-- A text with the tokens replaced one type after the other. -/
def apply (patch : Patch) (text : String) : String :=
  String.ofList <| patch.replacements.foldl
    (fun text entry =>
      Text.replaceAll (Placeholder.tokenChars entry.1.text.toList) entry.2.toList text)
    text.toList

/-- A list of patches with replacements added for a path: to the patch that is there for the path,
or else to a new one at the end. -/
def extend (path : Path) (replacements : List (TypeName × String)) : List Patch → List Patch
  | [] => [⟨path, replacements⟩]
  | patch :: rest =>
    if patch.path.same path then
      { patch with replacements := patch.replacements ++ replacements } :: rest
    else
      patch :: extend path replacements rest

end Patch

/-- The references that were written as placeholders, and the modules of the types that were
generated. -/
structure References where
  /-- The types that placeholders stand for, by the type that declares the fields. -/
  unresolved : List (TypeName × List TypeName) := []
  /-- The module of each generated type, the latest entry first. -/
  modules : List (TypeName × Path) := []
  deriving DecidableEq, Repr

namespace References

/-- A table with a reference added, unless it is there. -/
def insertEntry (declaring referenced : TypeName) :
    List (TypeName × List TypeName) → List (TypeName × List TypeName)
  | [] => [(declaring, [referenced])]
  | entry :: rest =>
    if entry.1 = declaring then
      (entry.1, if referenced ∈ entry.2 then entry.2 else entry.2 ++ [referenced]) :: rest
    else
      entry :: insertEntry declaring referenced rest

/-- Records that a type declares a field with a placeholder. -/
def insert (references : References) (declaring referenced : TypeName) : References :=
  { references with unresolved := insertEntry declaring referenced references.unresolved }

/-- Records placeholders in order, each as the declaring type and the type it stands for. -/
def insertAll (references : References) (pairs : List (TypeName × TypeName)) : References :=
  pairs.foldl (fun references pair => references.insert pair.1 pair.2) references

/-- Records the module of a type. -/
def setModule (references : References) (type : TypeName) (path : Path) : References :=
  { references with modules := (type, path) :: references.modules }

/-- The module that holds a type, found through the top-level type around it. -/
def module? (references : References) (type : TypeName) : Option Path :=
  references.modules.lookup type.root

/-- The recorded references whose types are still unknown, each as the declaring type and the type
it refers to. -/
def pending (references : References) (known : KnownTypes) : List (TypeName × TypeName) :=
  (references.unresolved.flatMap fun entry => entry.2.map fun type => (entry.1, type)).filter
    fun pair => !known.contains pair.2

/-- The replacements that newly known types call for in the fields of one declaring type. -/
def replacementsFor (referenced : List TypeName) (newTypes : List Declaration) :
    Except GenerationError (List (TypeName × String)) :=
  (newTypes.filter fun declaration => declaration.type ∈ referenced).mapM fun declaration =>
    match Placeholder.replacement declaration with
    | .ok text => .ok (declaration.type, text)
    | .error reason => .error reason

/-- The patches for a list of declaring types, on top of those that are already planned. -/
def planFrom (references : References) (newTypes : List Declaration) (planned : List Patch) :
    List (TypeName × List TypeName) → Except GenerationError (List Patch)
  | [] => .ok planned
  | (declaring, referenced) :: rest =>
    if newTypes.any fun declaration => declaration.type ∈ referenced then
      match references.module? declaring with
      | none => .error (.missingOutputPath declaring)
      | some path =>
        match replacementsFor referenced newTypes with
        | .error reason => .error reason
        | .ok replacements =>
          planFrom references newTypes (Patch.extend path replacements planned) rest
    else
      planFrom references newTypes planned rest

/-- The patches that newly known types call for, one for each file. -/
def plan (references : References) (newTypes : List Declaration) :
    Except GenerationError (List Patch) :=
  references.planFrom newTypes [] references.unresolved

variable {σ : Type} [Store σ]

/-- Patches one file. Whether the file changed is part of the answer. -/
def applyPatch (store : σ) (patch : Patch) : Except GenerationError WriteOutcome × σ :=
  match Store.read store patch.path with
  | .error fault => (.error (.read patch.path fault), store)
  | .ok text =>
    match Store.writeIfChanged store patch.path (patch.apply text) with
    | (.error fault, store) => (.error (.write patch.path fault), store)
    | (.ok outcome, store) => (.ok outcome, store)

/-- Patches files in order and gives those that changed. The first failure ends the pass; what was
patched before it stays patched. -/
def applyPatches (store : σ) : List Patch → Except GenerationError (List Path) × σ
  | [] => (.ok [], store)
  | patch :: rest =>
    match applyPatch store patch with
    | (.error reason, store) => (.error reason, store)
    | (.ok outcome, store) =>
      match applyPatches store rest with
      | (.error reason, store) => (.error reason, store)
      | (.ok changed, store) =>
        (.ok (if outcome = .written then patch.path :: changed else changed), store)

/-- Replaces the placeholders of newly known types in all files and gives the files that changed.
Nothing is written before every replacement is known. -/
def resolve (references : References) (newTypes : List Declaration) (store : σ) :
    Except GenerationError (List Path) × σ :=
  match references.plan newTypes with
  | .error reason => (.error reason, store)
  | .ok patches => applyPatches store patches

end References

end Typescribe
