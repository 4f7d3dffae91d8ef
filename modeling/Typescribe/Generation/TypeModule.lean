import Typescribe.Generation.Location
import Typescribe.Generation.RecordClass

/-!
# Modules of records and enumerations

The module of a top-level type declares the type and everything nested in it, and imports what
their fields refer to.
-/

namespace Typescribe

open TypeScript

/-- The declaration of an enumeration. -/
def Enumeration.declaration (enumeration : Enumeration) : Except GenerationError Enum := do
  let name ← enumeration.type.className
  return { name := name
           doc := Text.docLines enumeration.documentation
           members := enumeration.constants.map fun constant =>
             { name := constant.name, doc := Text.docLines constant.documentation }
           isDefaultExport := enumeration.type.isRoot }

namespace KnownTypes

/-- The layout of a declaration, types nested in it apart. A service has no place among types. -/
def declarationFragments (known : KnownTypes) (declaration : Declaration) :
    Except GenerationError (List Fragment) :=
  match declaration with
  | .record head _ => do
    let item ← known.recordClass head
    return item.fragments
  | .enumeration body => do
    let item ← body.declaration
    return item.fragments
  | .service body => .error (.unsupported .service body.type .dataType)

end KnownTypes

/-- The imports of a type's module: the decorator whenever the fields refer to anything but
scalars, and each type they refer to that is declared in another generated module. -/
def Declaration.imports (declaration : Declaration) : Except GenerationError (List Import) :=
  match declaration.referencedTypes with
  | [] => .ok []
  | types => do
    let elsewhere := types.filter fun type =>
      type.needsImport && type.root != declaration.type.root
    let imports ← elsewhere.mapM declaration.type.importInto
    return { source := "class-transformer", named := ["Type"] } :: imports

namespace KnownTypes

/-- The module of a top-level record or enumeration. -/
def typeModule (known : KnownTypes) (declaration : Declaration) :
    Except GenerationError Module := do
  let declarations ← declaration.flatten.mapM known.declarationFragments
  let imports ← declaration.imports
  return { imports := imports, declarations := declarations }

/-- The placeholders that writing declarations leaves, each as the declaring type and the type it
stands for. A declaration that fails ends the writing. -/
def placeholdersOf (known : KnownTypes) : List Declaration → List (TypeName × TypeName)
  | [] => []
  | declaration :: rest =>
    (match declaration with
      | .record head _ => (known.placeholders head).map fun type => (head.type, type)
      | _ => []) ++
    if (known.declarationFragments declaration).isOk then known.placeholdersOf rest else []

end KnownTypes

end Typescribe
