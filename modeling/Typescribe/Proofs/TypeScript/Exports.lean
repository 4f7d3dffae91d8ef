import Typescribe.Proofs.Layout
import Typescribe.Proofs.Placeholder.Landmark

/-!
# What modules export

A class, an enumeration or an interface is exported by the line that opens it. Only an enumeration
that is the default export takes a statement of its own. Every such line of a declaration is a line
of the module's text.
-/

namespace Typescribe.TypeScript

open Text Placeholder

/-- The lines that may open a block with the given head. A block without content is closed at
once. -/
def blockLines (head : String) : List String :=
  [head ++ " \x7b", head ++ " \x7b\x7d"]

/-- The lines that export a name, either as the default export of a module or under the name. -/
def exportLines (isDefault : Bool) (name : String) : List String :=
  if isDefault then
    blockLines ("export default class " ++ name) ++
      (blockLines ("export default interface " ++ name) ++ [defaultExport name])
  else
    blockLines ("export class " ++ name) ++ blockLines ("export enum " ++ name)

/-- The text of a module exports a name. -/
def Exports (text : String) (isDefault : Bool) (name : String) : Prop :=
  ∃ line ∈ exportLines isDefault name, HasLine text.toList line.toList

theorem Class.exists_openingLine (item : Class) :
    ∃ fragment ∈ item.fragments, ∃ line ∈ blockLines item.header,
      fragment.firstLine? = some line := by
  rw [fragments]
  split
  · exact ⟨_, List.mem_append_right _ List.mem_cons_self, _,
      List.mem_cons_of_mem _ List.mem_cons_self, rfl⟩
  · exact ⟨_, List.mem_append_right _ List.mem_cons_self, _, List.mem_cons_self, rfl⟩

theorem Enum.exists_openingLine (item : Enum) :
    ∃ fragment ∈ item.fragments, ∃ line ∈ blockLines item.header,
      fragment.firstLine? = some line := by
  rw [fragments]
  split
  · exact ⟨.line (item.header ++ " \x7b\x7d"), by simp, _,
      List.mem_cons_of_mem _ List.mem_cons_self, rfl⟩
  · exact ⟨.braced item.header (item.members.flatMap memberFragments), by simp, _,
      List.mem_cons_self, rfl⟩

/-- A class is exported by the line that opens it, and this line is a landmark. -/
theorem Class.exists_exportLine {item : Class} (plain : Braceless item.name.toList) :
    ∃ fragment ∈ item.fragments, ∃ line ∈ exportLines (item.exported == .asDefault) item.name,
      fragment.firstLine? = some line ∧ Landmark ('\n' :: (line.toList ++ ['\n'])) := by
  obtain ⟨fragment, member, line, opens, starts⟩ := item.exists_openingLine
  have landmark : Landmark ('\n' :: (line.toList ++ ['\n'])) := by
    refine landmark_line ?_ opens
    rw [header, String.toList_append]
    refine Braceless.append ?_ plain
    split
    · decide
    · decide
  refine ⟨fragment, member, line, ?_, starts, landmark⟩
  rw [header] at opens
  cases exported : item.exported with
  | asDefault =>
    rw [exported] at opens
    exact List.mem_append_left _ opens
  | named =>
    rw [exported] at opens
    exact List.mem_append_left _ opens

/-- An enumeration that is not the default export is exported by the line that opens it, and this
line is a landmark. -/
theorem Enum.exists_exportLine {item : Enum} (named : item.isDefaultExport = false)
    (plain : Braceless item.name.toList) :
    ∃ fragment ∈ item.fragments, ∃ line ∈ exportLines false item.name,
      fragment.firstLine? = some line ∧ Landmark ('\n' :: (line.toList ++ ['\n'])) := by
  obtain ⟨fragment, member, line, opens, starts⟩ := item.exists_openingLine
  rw [header, named] at opens
  have head : Braceless (("export " ++ "enum ") ++ item.name).toList := by
    rw [String.toList_append]
    exact Braceless.append (by decide) plain
  exact ⟨fragment, member, line, List.mem_append_right _ opens, starts, landmark_line head opens⟩

/-- An enumeration that is the default export is exported by a statement of its own. -/
theorem Enum.defaultExport_mem {item : Enum} (isDefault : item.isDefaultExport = true) :
    .line (defaultExport item.name) ∈ item.fragments ∧
      defaultExport item.name ∈ exportLines true item.name := by
  simp [fragments, isDefault, exportLines]

/-- The line that a part of a declaration starts with is a line of the module. -/
theorem Module.hasLine_render {item : Module} {layout : List Fragment} {fragment : Fragment}
    {line : String} (listed : layout ∈ item.declarations) (member : fragment ∈ layout)
    (starts : fragment.firstLine? = some line) : HasLine item.render.toList line.toList := by
  rw [render_toList]
  apply Fragment.hasLine_charsAll _ _ starts
  exact Fragment.mem_separated (List.mem_append_right _ listed) member

/-- The imports of a module as text. -/
def Module.importChars (item : Module) : List Char :=
  item.importLines.flatMap fun line => line.toList ++ ['\n']

/-- The text of a module starts with its imports. -/
theorem Module.importChars_isPrefix (item : Module) : item.importChars <+: item.render.toList := by
  have lines : Fragment.charsAll .standard 0 (item.importLines.map Fragment.line) =
      item.importChars := by
    rw [importChars]
    induction item.importLines with
    | nil => rfl
    | cons line rest ih =>
      rw [List.map_cons, Fragment.charsAll_cons, ih, List.flatMap_cons, Fragment.chars]
      rfl
  rw [render_toList, ← lines, fragments]
  cases imports : item.importLines.map Fragment.line with
  | nil => exact List.nil_prefix
  | cons first rest =>
    rw [List.isEmpty_cons, if_neg Bool.false_ne_true, List.singleton_append,
      Fragment.charsAll_separated, List.map_cons]
    cases item.declarations.map (Fragment.charsAll .standard 0) with
    | nil => simp [List.intercalate_singleton]
    | cons second later =>
      rw [List.intercalate_cons_cons, List.append_assoc]
      exact List.prefix_append _ _

end Typescribe.TypeScript
