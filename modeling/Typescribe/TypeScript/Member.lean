import Typescribe.Layout.Fragment

/-!
# Members of TypeScript classes

Parameters, properties, constructors and methods, each with its layout. Statements carry no
semicolons.
-/

namespace Typescribe.TypeScript

/-- A parameter of a constructor or method. -/
structure Param where
  name : String
  type : String
  defaultValue : Option String := none
  deriving DecidableEq, Repr

namespace Param

/-- A parameter as written: `name: string = "rex"`. -/
def render (param : Param) : String :=
  match param.defaultValue with
  | some value => param.name ++ ": " ++ param.type ++ " = " ++ value
  | none => param.name ++ ": " ++ param.type

/-- Parameters on one line. -/
def renderAll (params : List Param) : String :=
  String.intercalate ", " (params.map render)

end Param

/-- What tells the runtime the class of a property's values. -/
inductive Decorator where
  /-- Nothing, as for scalars and enumerations. -/
  | none
  /-- A decorator naming the class, on a line of its own. -/
  | association (className : String)
  /-- A token in front of the property, to be replaced when the type is known. -/
  | placeholder (token : String)
  deriving DecidableEq, Repr

/-- The decorator of a property whose values are instances of a class. -/
def association (className : String) : String :=
  "@Type(() => " ++ className ++ ")"

/-- A property of a class. -/
structure Property where
  name : String
  type : String
  isOptional : Bool := false
  initializer : Option String := none
  doc : List String := []
  decorator : Decorator := .none
  deriving DecidableEq, Repr

namespace Property

/-- The property as written, decorators apart: `name?: string = undefined`. -/
def declaration (property : Property) : String :=
  let mark := if property.isOptional then "?" else ""
  match property.initializer with
  | some value => property.name ++ mark ++ ": " ++ property.type ++ " = " ++ value
  | none => property.name ++ mark ++ ": " ++ property.type

/-- The layout of a property. -/
def fragments (property : Property) : List Fragment :=
  Fragment.comments property.doc ++
    match property.decorator with
    | .none => [.line property.declaration]
    | .association className => [.line (association className), .line property.declaration]
    | .placeholder token => [.line (token ++ property.declaration)]

end Property

/-- A constructor. Each parameter is assigned to the member of its name; a trailing callback may
receive the new instance to set the other members. -/
structure Constructor where
  params : List Param := []
  /-- The class whose instance the trailing callback receives, if there is one. -/
  configured : Option String := none
  /-- Whether each parameter stands on a line of its own. -/
  multiline : Bool := false
  deriving DecidableEq, Repr

namespace Constructor

/-- The trailing callback of a constructor. -/
def configureParam (className : String) : Param where
  name := "configure"
  type := "((o: " ++ className ++ ") => void) | undefined"
  defaultValue := some "undefined"

/-- The parameters with the trailing callback. -/
def signature (item : Constructor) : List Param :=
  item.params ++ (item.configured.map configureParam).toList

/-- The statements of a constructor. -/
def body (item : Constructor) : List Fragment :=
  (item.params.map fun param => .line ("this." ++ param.name ++ " = " ++ param.name)) ++
    if item.configured.isSome then [.line "configure?.call(this, this)"] else []

/-- Parameters on lines of their own, with a comma after each but the last. -/
def paramLines : List Param → List Fragment
  | [] => []
  | [last] => [.line last.render]
  | param :: rest => .line (param.render ++ ",") :: paramLines rest

/-- The layout of a constructor. -/
def fragments (item : Constructor) : List Fragment :=
  if item.multiline && !item.params.isEmpty then
    [.line "constructor(", .indented (paramLines item.signature), .braced ")" item.body]
  else
    [.braced ("constructor(" ++ Param.renderAll item.signature ++ ")") item.body]

end Constructor

/-- A method of a class. -/
structure Method where
  name : String
  params : List Param := []
  returnType : Option String := none
  body : List String := []
  doc : List String := []
  isAsync : Bool := false
  deriving DecidableEq, Repr

namespace Method

/-- The head of a method, up to its body. -/
def signature (method : Method) : String :=
  let head := (if method.isAsync then "async " else "") ++ method.name ++ "(" ++
    Param.renderAll method.params ++ ")"
  match method.returnType with
  | some type => head ++ ": " ++ type
  | none => head

/-- The layout of a method. -/
def fragments (method : Method) : List Fragment :=
  Fragment.comments method.doc ++ [.braced method.signature (method.body.map .line)]

end Method

end Typescribe.TypeScript
