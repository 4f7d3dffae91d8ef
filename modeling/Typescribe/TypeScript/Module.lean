import Typescribe.Text.Lines
import Typescribe.TypeScript.Member

/-!
# TypeScript modules

Classes, enumerations, imports, and the module that holds them.
-/

namespace Typescribe.TypeScript

/-- How a class leaves its module. -/
inductive ClassExport where
  | asDefault
  | named
  deriving DecidableEq, Repr

/-- A class, whose body is a list of sections such as the properties or one method. -/
structure Class where
  name : String
  exported : ClassExport
  doc : List String := []
  sections : List (List Fragment) := []

namespace Class

/-- The head of a class, up to its body. -/
def header (item : Class) : String :=
  (match item.exported with
    | .asDefault => "export default class "
    | .named => "export class ") ++ item.name

/-- Sections with an empty line between each and the next. -/
def separated : List (List Fragment) → List Fragment
  | [] => []
  | [last] => last
  | first :: rest => first ++ .blank :: separated rest

/-- The layout of a class. Sections without content are left out, and a class without sections is
one line. -/
def fragments (item : Class) : List Fragment :=
  Fragment.comments item.doc ++
    match item.sections.filter fun part => !part.isEmpty with
    | [] => [.line (item.header ++ " \x7b\x7d")]
    | sections => [.braced item.header (separated sections)]

end Class

/-- The statement that makes a name the default export of its module. -/
def defaultExport (name : String) : String :=
  "export default " ++ name ++ ";"

/-- A member of an enumeration. -/
structure EnumMember where
  name : String
  doc : List String := []
  deriving DecidableEq, Repr

/-- An enumeration whose values are the names of its members. -/
structure Enum where
  name : String
  doc : List String := []
  members : List EnumMember := []
  /-- Whether the enumeration is the default export, which takes a statement of its own. -/
  isDefaultExport : Bool := false
  deriving DecidableEq, Repr

namespace Enum

/-- The head of an enumeration, up to its body. -/
def header (item : Enum) : String :=
  (if item.isDefaultExport then "" else "export ") ++ "enum " ++ item.name

/-- The layout of a member. -/
def memberFragments (member : EnumMember) : List Fragment :=
  Fragment.comments member.doc ++ [.line (member.name ++ " = \"" ++ member.name ++ "\",")]

/-- The layout of an enumeration. -/
def fragments (item : Enum) : List Fragment :=
  Fragment.comments item.doc ++
    (if item.members.isEmpty then
      [.line (item.header ++ " \x7b\x7d")]
    else
      [.braced item.header (item.members.flatMap memberFragments)]) ++
    if item.isDefaultExport then [.blank, .line (defaultExport item.name)] else []

end Enum

/-- An import statement. -/
structure Import where
  /-- The module specifier, such as `../geology/Period`. -/
  source : String
  /-- The local name of the default export, if it is imported. -/
  defaultName : Option String := none
  /-- The named exports that are imported. -/
  named : List String := []
  deriving DecidableEq, Repr

/-- An import as written. -/
def Import.line (item : Import) : String :=
  let named := "\x7b " ++ String.intercalate ", " item.named ++ " \x7d"
  let source := "\"" ++ item.source ++ "\""
  match item.defaultName, item.named.isEmpty with
  | some name, true => "import " ++ name ++ " from " ++ source
  | some name, false => "import " ++ name ++ ", " ++ named ++ " from " ++ source
  | none, false => "import " ++ named ++ " from " ++ source
  | none, true => "import " ++ source

/-- The layout of a fixed text, line by line. -/
def verbatim (text : String) : List Fragment :=
  (Text.lines text).map fun line => if line.isEmpty then .blank else .line line

/-- A module: imports, then declarations. -/
structure Module where
  /-- The imports in order of mention. A repeated one counts once, at its first place. -/
  imports : List Import := []
  /-- Whether the import lines are sorted. -/
  sortImports : Bool := false
  declarations : List (List Fragment) := []

namespace Module

/-- Whether a module has neither imports nor declarations. -/
def isEmpty (item : Module) : Bool :=
  item.imports.isEmpty && item.declarations.isEmpty

/-- The import lines of a module in the order in which they are written. -/
def importLines (item : Module) : List String :=
  let lines := item.imports.eraseDups.map Import.line
  if item.sortImports then lines.mergeSort fun left right => decide (left ≤ right) else lines

/-- The layout of a module: the imports, then the declarations, with an empty line before each
declaration that something precedes. -/
def fragments (item : Module) : List Fragment :=
  let imports := item.importLines.map Fragment.line
  Class.separated ((if imports.isEmpty then [] else [imports]) ++ item.declarations)

/-- The text of a module. -/
def render (item : Module) : String :=
  (Page.addAll {} item.fragments).text

end Module

end Typescribe.TypeScript
