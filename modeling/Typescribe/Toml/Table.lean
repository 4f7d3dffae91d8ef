import Typescribe.Toml.Value

/-!
# Building TOML tables

A document says what its tables hold in several places: under headers, by dotted keys and between
braces. These operations add to a table and fail where TOML forbids it, above all where something
would be said twice.
-/

namespace Typescribe.Toml

/-- The contents of a table under construction. -/
structure Draft where
  origin : TableOrigin
  entries : List TomlEntry := []

namespace Draft

/-- The entry of a key. -/
def find? (draft : Draft) (key : String) : Option TomlEntry :=
  draft.entries.find? fun entry => entry.1.text == key

/-- The table with one more entry at the end. -/
def push (draft : Draft) (entry : TomlEntry) : Draft :=
  { draft with entries := draft.entries ++ [entry] }

/-- The table with another entry in place of the one that has its key. -/
def replace (draft : Draft) (entry : TomlEntry) : Draft :=
  { draft with
    entries := draft.entries.map fun other =>
      if other.1.text == entry.1.text then entry else other }

/-- The finished table. -/
def table (draft : Draft) : Toml :=
  .table draft.origin draft.entries

end Draft

/-- A change of a table that TOML may forbid. -/
abbrev Change := Draft → Option Draft

/-- A change of the table that a list ends with. -/
def changeLast (change : Change) : List (Text.Span × Toml) → Option (List (Text.Span × Toml))
  | [] => none
  | [(span, .table origin entries)] => do
    let changed ← change { origin, entries }
    return [(span, changed.table)]
  | [_] => none
  | item :: rest => do
    let rest ← changeLast change rest
    return item :: rest

/-- Changes the table that keys lead to. Tables on the way are made as needed, with the place of
the key that calls for them. A table between braces cannot be changed any more, and dotted keys do
not lead through tables that have a header of their own. -/
def changeAt (made : TableOrigin) (change : Change) : List TomlKey → Change
  | [], draft => change draft
  | key :: rest, draft =>
    match draft.find? key.text with
    | none => do
      let inner ← changeAt made change rest { origin := made }
      return draft.push (key, key.span, inner.table)
    | some (written, span, .table origin entries) =>
      if origin = .braces ∨ (made = .dottedKey ∧ origin = .header) then none
      else do
        let inner ← changeAt made change rest { origin, entries }
        return draft.replace (written, span, inner.table)
    | some (written, span, .array .headers items) => do
      let items ← changeLast (changeAt made change rest) items
      return draft.replace (written, span, .array .headers items)
    | some _ => none

/-- Adds a value under a new key. -/
def addValue (key : TomlKey) (span : Text.Span) (value : Toml) : Change := fun draft =>
  if (draft.find? key.text).isSome then none else some (draft.push (key, span, value))

/-- Adds a value under a key that may be dotted. Only tables that dotted keys made can be added to
in this way. -/
def assign (keys : List TomlKey) (span : Text.Span) (value : Toml) : Change :=
  match keys.reverse with
  | [] => fun _ => none
  | [key] => addValue key span value
  | key :: outer =>
    changeAt .dottedKey
      (fun draft => if draft.origin = .dottedKey then addValue key span value draft else none)
      outer.reverse

/-- Opens the table of a header, which must not have been opened before. What headers of tables
inside it have brought about stays. -/
def openTable (key : TomlKey) (span : Text.Span) : Change := fun draft =>
  match draft.find? key.text with
  | none => some (draft.push (key, span, .table .header []))
  | some (_, _, .table .outerHeader entries) =>
    some (draft.replace (key, span, .table .header entries))
  | some _ => none

/-- Opens one more table of an array of tables. -/
def openItem (key : TomlKey) (span : Text.Span) : Change := fun draft =>
  let item : Text.Span × Toml := (span, .table .header [])
  match draft.find? key.text with
  | none => some (draft.push (key, span, .array .headers [item]))
  | some (written, place, .array .headers items) =>
    some (draft.replace (written, place, .array .headers (items ++ [item])))
  | some _ => none

/-- Opens the table of a header, in double brackets or not. -/
def openHeader (isItem : Bool) (keys : List TomlKey) (span : Text.Span) : Change :=
  match keys.reverse with
  | [] => fun _ => none
  | key :: outer =>
    changeAt .outerHeader (if isItem then openItem key span else openTable key span) outer.reverse

/-- Changes the table that was opened last, which the keys of its header lead to. -/
def inOpened (change : Change) (header : List TomlKey) : Change :=
  changeAt .outerHeader change header

end Typescribe.Toml
