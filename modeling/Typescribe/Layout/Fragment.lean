/-!
# Fragments of laid-out text

A fragment is a piece of output before indentation. It says which lines there are and how they
nest; what one step of nesting looks like is decided by the page it is put on.
-/

namespace Typescribe

/-- The blanks written once for each level of nesting. -/
inductive Indent where
  | spaces (width : Nat)
  | tab
  deriving DecidableEq, Repr

namespace Indent

/-- The widest indentation by spaces; larger widths count as this one. -/
def maxWidth : Nat := 8

/-- The text of one level. -/
def text : Indent → String
  | spaces width => String.ofList (List.replicate (min width maxWidth) ' ')
  | tab => "\t"

/-- Two spaces, as in every generated module. -/
def standard : Indent := spaces 2

end Indent

/-- A piece of output before indentation. -/
inductive Fragment where
  /-- A text on a line of its own. -/
  | line (text : String)
  /-- An empty line, which is never indented. -/
  | blank
  /-- A line comment. -/
  | comment (text : String)
  /-- Fragments one level deeper. -/
  | indented (body : List Fragment)
  /-- A header, fragments one level deeper, and perhaps a closing line. -/
  | block (header : String) (body : List Fragment) (close : Option String)
  deriving Inhabited

namespace Fragment

/-- A comment for each line of a documentation. -/
def comments (texts : List String) : List Fragment :=
  texts.map comment

/-- A block between braces. -/
def braced (header : String) (body : List Fragment) : Fragment :=
  block (header ++ " \x7b") body (some "\x7d")

/-- The text of a line comment. A comment without text is the two slashes alone. -/
def commentText (text : String) : String :=
  if text.isEmpty then "//" else "// " ++ text

end Fragment

/-- A text under construction, with the depth at which the next line stands. -/
structure Page where
  unit : Indent := Indent.standard
  depth : Nat := 0
  text : String := ""
  deriving DecidableEq, Repr

namespace Page

/-- The indentation of the next line. -/
def margin (page : Page) : String :=
  String.join (List.replicate page.depth page.unit.text)

/-- Adds a line at the current depth. -/
def line (page : Page) (text : String) : Page :=
  { page with text := page.text ++ page.margin ++ text ++ "\n" }

/-- Adds an empty line. -/
def blank (page : Page) : Page :=
  { page with text := page.text ++ "\n" }

/-- Adds a line comment at the current depth. -/
def comment (page : Page) (text : String) : Page :=
  page.line (Fragment.commentText text)

/-- Puts the following lines one level deeper. -/
def indent (page : Page) : Page :=
  { page with depth := page.depth + 1 }

/-- Puts the following lines one level further out, as far as there is one. -/
def dedent (page : Page) : Page :=
  { page with depth := page.depth - 1 }

mutual

/-- Lays out a fragment at the current depth. -/
def add (page : Page) : Fragment → Page
  | .line text => page.line text
  | .blank => page.blank
  | .comment text => page.comment text
  | .indented body => (addAll page.indent body).dedent
  | .block header body close =>
    let page := (addAll (page.line header).indent body).dedent
    match close with
    | some text => page.line text
    | none => page

/-- Lays out fragments one after the other. -/
def addAll (page : Page) : List Fragment → Page
  | [] => page
  | fragment :: rest => addAll (add page fragment) rest

end

end Page

end Typescribe
