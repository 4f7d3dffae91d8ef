import Typescribe.Generation.Naming
import Typescribe.TypeScript.Module

/-!
# Where generated modules are

Every top-level type has a module of its own, in the directory that its package spells. Types
nested in it are in the same module.
-/

namespace Typescribe

open TypeScript

namespace TypeName

/-- The directory of a type's module. -/
def packageDir (type : TypeName) : Path :=
  type.package.foldl (fun dir segment => dir.join ⟨segment⟩) ⟨""⟩

/-- The module of a type, which is the module of the top-level type around it. -/
def moduleFile (type : TypeName) : Path :=
  type.root.packageDir.join ⟨type.root.simpleName ++ ".ts"⟩

/-- How many segments two lists share from the start. -/
def commonLength (source destination : List String) : Nat :=
  ((source.zip destination).takeWhile fun pair => pair.1 == pair.2).length

/-- The steps from one directory to another: first out as far as needed, with a dot if no step
out is needed, then in. -/
def relativeSteps (source destination : List String) : List String :=
  let common := commonLength source destination
  let out := List.replicate (source.length - common) ".."
  (if out.isEmpty then ["."] else out) ++ destination.drop common

/-- The directory of a type as seen from the directory of another. -/
def relativeDir (source destination : TypeName) : String :=
  String.intercalate "/" (relativeSteps source.package destination.package)

/-- The specifier by which the module of one type imports the module of another. -/
def moduleSpecifier (source destination : TypeName) : Except GenerationError String :=
  match destination.names with
  | [] => .error (.invalidTypeName destination)
  | outermost :: _ => .ok (relativeDir source destination ++ "/" ++ outermost)

/-- The import that brings a type into the module of another. Top-level types are default
exports and nested types are named exports. -/
def importInto (source destination : TypeName) : Except GenerationError Import :=
  match moduleSpecifier source destination with
  | .error reason => .error reason
  | .ok specifier =>
    match destination.className with
    | .error reason => .error reason
    | .ok name =>
      if destination.isRoot then
        .ok { source := specifier, defaultName := some name }
      else
        .ok { source := specifier, named := [name] }

end TypeName

end Typescribe
