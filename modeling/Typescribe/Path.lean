/-!
# Paths

A path is kept as it was written. Two spellings mean the same path when they take the same steps:
repeated slashes, a trailing slash and single dots after the first step do not count. A path is
never simplified; in particular `..` is a step like any other.
-/

namespace Typescribe

/-- One step of a path. -/
inductive PathStep where
  /-- Start at the root of the file system. -/
  | root
  /-- Stay, as the leading dot of `./a` says. -/
  | here
  /-- Leave the directory. -/
  | up
  /-- Enter the entry of the given name. -/
  | name (text : String)
  deriving DecidableEq, Repr

/-- A step as it is shown. -/
def PathStep.text : PathStep → String
  | root => "/"
  | here => "."
  | up => ".."
  | name text => text

/-- A path as written. -/
structure Path where
  text : String
  deriving DecidableEq, Repr, Inhabited

namespace Path

/-- The texts between the slashes. -/
def pieces (path : Path) : List (List Char) :=
  path.text.toList.splitOn '/'

/-- The step that a text between slashes stands for. Empty texts and single dots stand for
none. -/
def stepOf? (piece : List Char) : Option PathStep :=
  if piece = [] ∨ piece = ['.'] then none
  else if piece = ['.', '.'] then some .up
  else some (.name (String.ofList piece))

/-- The steps of a path. -/
def steps (path : Path) : List PathStep :=
  match path.pieces with
  | [] => []
  | [] :: [] => []
  | [] :: rest => .root :: rest.filterMap stepOf?
  | ['.'] :: rest => .here :: rest.filterMap stepOf?
  | pieces => pieces.filterMap stepOf?

/-- Whether two paths take the same steps. -/
def same (left right : Path) : Bool :=
  left.steps == right.steps

/-- Whether a path starts at the root of the file system. -/
def isAbsolute (path : Path) : Bool :=
  path.text.toList.head? == some '/'

/-- The second path as seen from the first: an absolute path stands for itself, and any other is
written behind the first one. -/
def join (base path : Path) : Path :=
  if path.isAbsolute || base.text.isEmpty then path
  else if base.text.toList.getLast? == some '/' then ⟨base.text ++ path.text⟩
  else ⟨base.text ++ "/" ++ path.text⟩

/-- A list of texts between slashes without those at the end that stand for no step. -/
def dropTrailing (pieces : List (List Char)) : List (List Char) :=
  (pieces.reverse.dropWhile fun piece => (stepOf? piece).isNone).reverse

/-- The part of a path that no parent reaches behind: the root, or a leading dot. -/
def anchor (path : Path) : List Char :=
  match path.text.toList with
  | '/' :: _ => ['/']
  | ['.'] => ['.']
  | '.' :: '/' :: _ => ['.']
  | _ => []

/-- The path without its last step. The root and the empty path have no parent. -/
def parent? (path : Path) : Option Path :=
  let anchor := path.anchor
  let pieces := (path.text.toList.drop anchor.length).splitOn '/'
  match dropTrailing pieces with
  | [] => if anchor = ['.'] then some ⟨""⟩ else none
  | kept =>
    let rest := ['/'].intercalate (dropTrailing kept.dropLast)
    some ⟨String.ofList (anchor ++ rest)⟩

/-- A path as reports show it: its steps with slashes between them. The root is itself shown as a
slash. -/
def shown (path : Path) : String :=
  String.intercalate "/" (path.steps.map PathStep.text)

end Path

end Typescribe
