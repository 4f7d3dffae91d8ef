import Mathlib.Data.List.Nodup
import Mathlib.Data.List.Pairwise
import Typescribe.TypeScript.Module

/-!
# Names that modules bind

At its top level, a module binds the names that its imports bring in and the names of its classes
and enumerations. The latter are read off the lines that open them.
-/

namespace Typescribe

open TypeScript

namespace TypeScript

/-- The names under which an import brings something in. -/
def Import.localNames (item : Import) : List String :=
  item.defaultName.toList ++ item.named

/-- What stands before the name of a class or an enumeration in the line that opens it. -/
def openings : List String :=
  ["export default class ", "export class ", "export enum ", "enum "]

/-- The name in the head of a class or an enumeration. -/
def headName? (head : List Char) : Option String :=
  (openings.findSome? fun opening => head.dropPrefix? opening.toList).map String.ofList

end TypeScript

/-- The name that a part of a module's layout declares, if it is a class or an enumeration. One
without content is closed in the line that opens it. -/
def Fragment.declaredName? : Fragment → Option String
  | .block header _ _ => (header.toList.dropSuffix? " \x7b".toList).bind headName?
  | .line text => (text.toList.dropSuffix? " \x7b\x7d".toList).bind headName?
  | _ => none

namespace TypeScript

/-- The names of the classes and enumerations of a module. -/
def Module.declaredNames (item : Module) : List String :=
  item.declarations.flatMap fun layout => layout.filterMap Fragment.declaredName?

/-- The names that a module binds at its top level. -/
def Module.topLevelNames (item : Module) : List String :=
  item.imports.eraseDups.flatMap Import.localNames ++ item.declaredNames

/-- Of texts of which none starts like another, the one that a text starts with is found. -/
theorem findSome?_dropPrefix {starts : List String} {start : String} {rest : List Char}
    (apart : ∀ first ∈ starts, ∀ second ∈ starts,
      first.toList <+: second.toList ∨ second.toList <+: first.toList → first = second)
    (member : start ∈ starts) :
    (starts.findSome? fun other => (start.toList ++ rest).dropPrefix? other.toList) =
      some rest := by
  induction starts with
  | nil => exact absurd member List.not_mem_nil
  | cons first later ih =>
    rw [List.findSome?_cons]
    by_cases here : first = start
    · rw [here, List.dropPrefix?_append_of_beq rest BEq.rfl]
    · have noStart : (start.toList ++ rest).dropPrefix? first.toList = none := by
        rw [Option.eq_none_iff_forall_ne_some]
        intro left found
        obtain ⟨taken, split, same⟩ := List.dropPrefix?_eq_some_iff.mp found
        rw [eq_of_beq same] at split
        refine here (apart first List.mem_cons_self start member ?_)
        exact List.prefix_or_prefix_of_prefix (split ▸ List.prefix_append first.toList left)
          (List.prefix_append start.toList rest)
      rw [noStart]
      refine ih (fun left isLeft right isRight => ?_)
        ((List.mem_cons.mp member).resolve_left (Ne.symm here))
      exact apart left (List.mem_cons_of_mem _ isLeft) right (List.mem_cons_of_mem _ isRight)

theorem headName?_append {opening : String} (member : opening ∈ openings) (name : String) :
    headName? (opening ++ name).toList = some name := by
  rw [headName?, String.toList_append, findSome?_dropPrefix (by decide) member,
    Option.map_some, String.ofList_toList]

theorem dropSuffix?_append (text ending : String) :
    (text ++ ending).toList.dropSuffix? ending.toList = some text.toList :=
  List.dropSuffix?_eq_some_iff.mpr ⟨ending.toList, String.toList_append, BEq.rfl⟩

theorem declaredName?_braced {opening : String} (member : opening ∈ openings) (name : String)
    (body : List Fragment) :
    (Fragment.braced (opening ++ name) body).declaredName? = some name := by
  rw [Fragment.braced, Fragment.declaredName?, dropSuffix?_append, Option.bind_some,
    headName?_append member]

theorem declaredName?_line {opening : String} (member : opening ∈ openings) (name : String) :
    (Fragment.line (opening ++ name ++ " \x7b\x7d")).declaredName? = some name := by
  rw [Fragment.declaredName?, dropSuffix?_append, Option.bind_some, headName?_append member]

theorem filterMap_comments (texts : List String) :
    (Fragment.comments texts).filterMap Fragment.declaredName? = [] := by
  rw [Fragment.comments, List.filterMap_map, List.filterMap_eq_nil_iff]
  exact fun _ _ => rfl

/-- A class declares its name. -/
theorem Class.declaredNames_eq (item : Class) :
    item.fragments.filterMap Fragment.declaredName? = [item.name] := by
  obtain ⟨opening, member, header⟩ :
      ∃ opening ∈ openings, item.header = opening ++ item.name := by
    rw [Class.header]
    cases item.exported with
    | asDefault => exact ⟨_, by simp [openings], rfl⟩
    | named => exact ⟨_, by simp [openings], rfl⟩
  rw [fragments, List.filterMap_append, filterMap_comments, List.nil_append, header]
  split
  · rw [List.filterMap_cons_some (declaredName?_line member _), List.filterMap_nil]
  · rw [List.filterMap_cons_some (declaredName?_braced member _ _), List.filterMap_nil]

/-- The statement that exports an enumeration declares nothing. -/
theorem declaredName?_defaultExport (name : String) :
    (Fragment.line (defaultExport name)).declaredName? = none := by
  have whole : (defaultExport name).toList = ("export default " ++ name).toList ++ [';'] :=
    String.toList_append
  have noEnding : (defaultExport name).toList.dropSuffix? " \x7b\x7d".toList = none := by
    rw [Option.eq_none_iff_forall_ne_some]
    intro left found
    obtain ⟨ending, split, same⟩ := List.dropSuffix?_eq_some_iff.mp found
    have last := congrArg List.getLast? (whole.symm.trans split)
    rw [eq_of_beq same, List.getLast?_concat, List.getLast?_append] at last
    exact absurd last (by simp)
  rw [Fragment.declaredName?, noEnding]
  rfl

/-- An enumeration declares its name. -/
theorem Enum.declaredNames_eq (item : Enum) :
    item.fragments.filterMap Fragment.declaredName? = [item.name] := by
  obtain ⟨opening, member, header⟩ :
      ∃ opening ∈ openings, item.header = opening ++ item.name := by
    rw [Enum.header]
    cases item.isDefaultExport with
    | true => exact ⟨"enum ", by simp [openings], rfl⟩
    | false => exact ⟨"export enum ", by simp [openings], rfl⟩
  have exported : (if item.isDefaultExport then [Fragment.blank, .line (defaultExport item.name)]
      else []).filterMap Fragment.declaredName? = [] := by
    split
    · rw [List.filterMap_cons_none rfl, List.filterMap_cons_none (declaredName?_defaultExport _)]
      rfl
    · rfl
  rw [fragments, List.filterMap_append, List.filterMap_append, filterMap_comments, exported,
    List.nil_append, List.append_nil, header]
  split
  · rw [List.filterMap_cons_some (declaredName?_line member _), List.filterMap_nil]
  · rw [List.filterMap_cons_some (declaredName?_braced member _ _), List.filterMap_nil]

theorem nodup_eraseDups {α : Type} [BEq α] [LawfulBEq α] (items : List α) :
    items.eraseDups.Nodup := by
  induction size : items.length using Nat.strongRecOn generalizing items with
  | ind bound ih =>
    cases items with
    | nil => exact List.nodup_nil
    | cons first rest =>
      rw [List.eraseDups_cons, List.nodup_cons]
      refine ⟨?_, ih _ ?_ _ rfl⟩
      · simp
      · have shorter := List.length_filter_le (fun item => !item == first) rest
        rw [List.length_cons] at size
        omega

/-- A module binds each name once if its imports and its declarations do, each by themselves, if no
two of the imports bind one name and none binds the name of a declaration. -/
theorem Module.nodup_topLevelNames_iff (item : Module) :
    item.topLevelNames.Nodup ↔
      (∀ entry ∈ item.imports, entry.localNames.Nodup) ∧
      (∀ first ∈ item.imports, ∀ second ∈ item.imports, ∀ name ∈ first.localNames,
        name ∈ second.localNames → first = second) ∧
      item.declaredNames.Nodup ∧
      ∀ entry ∈ item.imports, ∀ name ∈ entry.localNames, name ∉ item.declaredNames := by
  have apart : item.imports.eraseDups.Pairwise
      (Function.onFun List.Disjoint Import.localNames) ↔
        ∀ first ∈ item.imports, ∀ second ∈ item.imports, ∀ name ∈ first.localNames,
          name ∈ second.localNames → first = second := by
    constructor
    · intro pairwise first member second otherMember name bound otherBound
      by_contra different
      have symmetric : Std.Symm (Function.onFun List.Disjoint Import.localNames) :=
        ⟨fun _ _ disjoint _ bound otherBound => disjoint otherBound bound⟩
      exact pairwise.forall (List.mem_eraseDups.mpr member) (List.mem_eraseDups.mpr otherMember)
        different bound otherBound
    · intro equal
      refine (nodup_eraseDups item.imports).pairwise_of_forall_ne
        fun first member second otherMember different name bound otherBound => different ?_
      exact equal first (List.mem_eraseDups.mp member) second (List.mem_eraseDups.mp otherMember)
        name bound otherBound
  rw [topLevelNames, List.nodup_append', List.nodup_flatMap, apart]
  simp only [List.mem_eraseDups, and_assoc, List.Disjoint, List.mem_flatMap]
  refine and_congr_right fun _ => and_congr_right fun _ => and_congr_right fun _ => ?_
  exact ⟨fun disjoint entry member name bound => disjoint ⟨entry, member, bound⟩,
    fun free name ⟨entry, member, bound⟩ => free entry member name bound⟩

end TypeScript

end Typescribe
