import Typescribe.Generation.Naming

/-!
# Known types

The types that a run has met so far. The table only grows, and the first declaration of a type
stays the one that counts.
-/

namespace Typescribe

/-- The declarations met so far, in order. -/
structure KnownTypes where
  declarations : List Declaration

/-- What registering the declarations of a file comes to. -/
structure Registration where
  /-- The types known afterwards. -/
  known : KnownTypes
  /-- The declarations that were not known before, nested ones included. -/
  newTypes : List Declaration
  /-- The top-level declarations among them. A declaration that repeats a known type is not one,
  even if it says the same. -/
  newRoots : List Declaration

namespace KnownTypes

/-- At first only the timestamp is known. It counts as a record, so that its values are
associated with their class. -/
def initial : KnownTypes :=
  ⟨[.record { type := timestamp } []]⟩

/-- The declaration of a type. -/
def find? (known : KnownTypes) (type : TypeName) : Option Declaration :=
  known.declarations.find? fun declaration => declaration.type = type

/-- Whether a type is known. -/
def contains (known : KnownTypes) (type : TypeName) : Bool :=
  (known.find? type).isSome

/-- The number of known types. -/
def size (known : KnownTypes) : Nat :=
  known.declarations.length

/-- The table with a declaration added, unless its type is known. -/
def add (known : KnownTypes) (declaration : Declaration) : KnownTypes :=
  if known.contains declaration.type then known else ⟨known.declarations ++ [declaration]⟩

/-- Adds declarations in order and gives those that were new. -/
def addAll (known : KnownTypes) : List Declaration → KnownTypes × List Declaration
  | [] => (known, [])
  | declaration :: rest =>
    let (after, fresh) := (known.add declaration).addAll rest
    (after, if known.contains declaration.type then fresh else declaration :: fresh)

/-- Registers top-level declarations in order, each with everything nested in it. -/
def register (known : KnownTypes) : List Declaration → Registration
  | [] => ⟨known, [], []⟩
  | root :: rest =>
    let (after, fresh) := known.addAll root.flatten
    let later := after.register rest
    { known := later.known
      newTypes := fresh ++ later.newTypes
      newRoots :=
        if known.contains root.type then later.newRoots else root :: later.newRoots }

end KnownTypes

end Typescribe
