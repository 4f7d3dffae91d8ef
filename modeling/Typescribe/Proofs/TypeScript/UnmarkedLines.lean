import Typescribe.Proofs.Layout

/-!
# Marks in TypeScript code

Whatever code is made of, its lines have no mark unless one of the texts in it has. So a module
whose names, types, values and comments have no marks is a settled text.
-/

namespace Typescribe.TypeScript

open Placeholder

open Fragment (UnmarkedLines)

/-- The texts of a parameter have no mark. -/
structure Param.IsUnmarked (param : Param) : Prop where
  name : Unmarked param.name.toList
  type : Unmarked param.type.toList
  value : ∀ value ∈ param.defaultValue, Unmarked value.toList

namespace Param

theorem unmarked_render {param : Param} (unmarked : param.IsUnmarked) :
    Unmarked param.render.toList := by
  have typed := unmarked.name.join_literal (by decide : Divider ": ".toList) unmarked.type
  rw [render]
  split
  next value given => exact typed.join_literal (by decide) (unmarked.value value given)
  next => exact typed

theorem unmarked_renderAll {params : List Param} (unmarked : ∀ param ∈ params, param.IsUnmarked) :
    Unmarked (renderAll params).toList := by
  rw [renderAll, String.toList_intercalate]
  apply Unmarked.intercalate (by decide)
  intro part member
  obtain ⟨text, listed, rfl⟩ := List.mem_map.mp member
  obtain ⟨param, given, rfl⟩ := List.mem_map.mp listed
  exact unmarked_render (unmarked param given)

end Param

theorem unmarked_association {className : String} (unmarked : Unmarked className.toList) :
    Unmarked (association className).toList :=
  (unmarked.literal_append (by decide)).append_literal (.of_not_mem (by decide)) (by decide)

/-- The declaration of a property has no mark if the texts in it have none. -/
theorem Property.unmarked_declaration {property : Property} (name : Unmarked property.name.toList)
    (type : Unmarked property.type.toList)
    (value : ∀ value ∈ property.initializer, Unmarked value.toList) :
    Unmarked property.declaration.toList := by
  have named : Unmarked (property.name ++ if property.isOptional then "?" else "").toList := by
    split
    · exact name.append_literal (.of_not_mem (by decide)) (by decide)
    · exact name.append_literal (.of_not_mem (by decide)) (by decide)
  have typed := named.join_literal (by decide : Divider ": ".toList) type
  rw [declaration]
  split
  next text given => exact typed.join_literal (by decide) (value text given)
  next => exact typed

namespace Constructor

theorem isUnmarked_configureParam {className : String} (unmarked : Unmarked className.toList) :
    (configureParam className).IsUnmarked where
  name := .of_not_mem (by decide : '{' ∉ "configure".toList)
  type := (unmarked.literal_append (by decide)).append_literal (.of_not_mem (by decide)) (by decide)
  value := by
    rintro _ ⟨⟩
    exact .of_not_mem (by decide)

theorem isUnmarked_signature {item : Constructor}
    (params : ∀ param ∈ item.params, param.IsUnmarked)
    (configured : ∀ name ∈ item.configured, Unmarked name.toList) :
    ∀ param ∈ item.signature, param.IsUnmarked := by
  rw [signature, List.forall_mem_append]
  refine ⟨params, ?_⟩
  intro param member
  rw [Option.mem_toList, Option.map_eq_some_iff] at member
  obtain ⟨name, given, rfl⟩ := member
  exact isUnmarked_configureParam (configured name given)

theorem unmarkedLines_body {item : Constructor}
    (params : ∀ param ∈ item.params, param.IsUnmarked) : UnmarkedLines item.body := by
  rw [body]
  apply UnmarkedLines.append
  · rw [List.map_eq_flatMap]
    apply UnmarkedLines.flatMap
    intro param given
    have name := (params param given).name
    exact .line ((name.literal_append (by decide)).join_literal (by decide) name) .nil
  · split
    · exact .line (.of_not_mem (by decide)) .nil
    · exact .nil

theorem unmarkedLines_paramLines {params : List Param}
    (unmarked : ∀ param ∈ params, param.IsUnmarked) : UnmarkedLines (paramLines params) := by
  fun_induction paramLines params with
  | case1 => exact .nil
  | case2 last => exact .line (Param.unmarked_render (unmarked last List.mem_cons_self)) .nil
  | case3 param rest nonempty ih =>
    obtain ⟨head, tail⟩ := List.forall_mem_cons.mp unmarked
    have rendered := Param.unmarked_render head
    exact .line (rendered.append_literal (.of_not_mem (by decide)) (by decide)) (ih tail)

/-- A constructor has no mark if its parameters have none. -/
theorem unmarkedLines {item : Constructor} (params : ∀ param ∈ item.params, param.IsUnmarked)
    (configured : ∀ name ∈ item.configured, Unmarked name.toList) :
    UnmarkedLines item.fragments := by
  have signature := isUnmarked_signature params configured
  have body := unmarkedLines_body params
  rw [fragments]
  split
  · apply UnmarkedLines.line (.of_not_mem (by decide))
    apply UnmarkedLines.indented (unmarkedLines_paramLines signature)
    exact .braced (.of_not_mem (by decide)) body .nil
  · refine .braced ?_ body .nil
    have opened := (Param.unmarked_renderAll signature).literal_append
      (by decide : '{' ∉ "constructor(".toList)
    exact opened.append_literal (.of_not_mem (by decide)) (by decide)

end Constructor

namespace Method

theorem unmarked_signature {method : Method} (name : Unmarked method.name.toList)
    (params : ∀ param ∈ method.params, param.IsUnmarked)
    (returned : ∀ type ∈ method.returnType, Unmarked type.toList) :
    Unmarked method.signature.toList := by
  have named : Unmarked ((if method.isAsync then "async " else "") ++ method.name).toList := by
    split
    · exact name.literal_append (by decide)
    · exact name.literal_append (by decide)
  have called := named.join_literal (by decide : Divider "(".toList)
    (Param.unmarked_renderAll params)
  have closed := called.append_literal (.of_not_mem (by decide : '{' ∉ ")".toList)) (by decide)
  rw [signature]
  split
  next type given => exact closed.join_literal (by decide) (returned type given)
  next => exact closed

/-- A method has no mark if its head, its statements and its comments have none. -/
theorem unmarkedLines {method : Method} (signature : Unmarked method.signature.toList)
    (body : ∀ line ∈ method.body, Unmarked line.toList)
    (doc : ∀ line ∈ method.doc, Unmarked line.toList) : UnmarkedLines method.fragments := by
  rw [fragments]
  exact (UnmarkedLines.comments doc).append (.braced signature (.lines body) .nil)

end Method

theorem unmarked_braces : Unmarked " \x7b\x7d".toList := .of_capital_not_mem (by decide)

namespace Class

theorem unmarked_header {item : Class} (name : Unmarked item.name.toList) :
    Unmarked item.header.toList := by
  rw [header]
  split
  · exact name.literal_append (by decide)
  · exact name.literal_append (by decide)

/-- A class has no mark if its name, its comments and its sections have none. -/
theorem unmarkedLines {item : Class} (name : Unmarked item.name.toList)
    (doc : ∀ line ∈ item.doc, Unmarked line.toList)
    (sections : ∀ part ∈ item.sections, UnmarkedLines part) : UnmarkedLines item.fragments := by
  rw [fragments]
  apply (UnmarkedLines.comments doc).append
  split
  · exact .line ((unmarked_header name).append_literal unmarked_braces (by decide)) .nil
  · refine .braced (unmarked_header name) (.separated ?_) .nil
    exact fun part member => sections part (List.mem_filter.mp member).1

end Class

namespace Enum

theorem unmarked_header {item : Enum} (name : Unmarked item.name.toList) :
    Unmarked item.header.toList := by
  rw [header]
  split
  · exact name.literal_append (by decide)
  · exact name.literal_append (by decide)

theorem unmarkedLines_memberFragments {member : EnumMember} (name : Unmarked member.name.toList)
    (doc : ∀ line ∈ member.doc, Unmarked line.toList) :
    UnmarkedLines (memberFragments member) := by
  rw [memberFragments]
  apply (UnmarkedLines.comments doc).append
  have twice := name.join_literal (by decide : Divider " = \"".toList) name
  exact .line (twice.append_literal (.of_not_mem (by decide)) (by decide)) .nil

/-- An enumeration has no mark if its name, its members and its comments have none. -/
theorem unmarkedLines {item : Enum} (name : Unmarked item.name.toList)
    (doc : ∀ line ∈ item.doc, Unmarked line.toList)
    (members : ∀ member ∈ item.members, Unmarked member.name.toList ∧
      ∀ line ∈ member.doc, Unmarked line.toList) : UnmarkedLines item.fragments := by
  rw [fragments]
  refine ((UnmarkedLines.comments doc).append ?_).append ?_
  · split
    · exact .line ((unmarked_header name).append_literal unmarked_braces (by decide)) .nil
    · refine .braced (unmarked_header name) (.flatMap ?_) .nil
      exact fun member listed =>
        unmarkedLines_memberFragments (members member listed).1 (members member listed).2
  · split
    · apply UnmarkedLines.blank
      have leading := name.literal_append (by decide : '{' ∉ "export default ".toList)
      exact .line (leading.append_literal (.of_not_mem (by decide)) (by decide)) .nil
    · exact .nil

end Enum

/-- An import has no mark if the names in it have none. -/
theorem Import.unmarked_line {item : Import} (source : Unmarked item.source.toList)
    (defaultName : ∀ name ∈ item.defaultName, Unmarked name.toList)
    (named : ∀ name ∈ item.named, Unmarked name.toList) : Unmarked item.line.toList := by
  have names : Unmarked (String.intercalate ", " item.named).toList := by
    rw [String.toList_intercalate]
    apply Unmarked.intercalate (by decide)
    intro part member
    obtain ⟨name, listed, rfl⟩ := List.mem_map.mp member
    exact named name listed
  have quoted : Unmarked ("\"" ++ item.source ++ "\"").toList :=
    (source.literal_append (by decide)).append_literal (.of_not_mem (by decide)) (by decide)
  have braced : Unmarked ("\x7b " ++ String.intercalate ", " item.named ++ " \x7d").toList := by
    have opened : Unmarked ("\x7b " ++ String.intercalate ", " item.named).toList := by
      rw [String.toList_append]
      exact Unmarked.append_of_last (.of_capital_not_mem (by decide)) names (by decide)
    exact opened.append_literal (.of_not_mem (by decide)) (by decide)
  have leading : ∀ {name : String}, Unmarked name.toList → Unmarked ("import " ++ name).toList :=
    fun unmarked => unmarked.literal_append (by decide)
  rw [line]
  split
  next _ _ name given _ => exact (leading (defaultName name given)).join_literal (by decide) quoted
  next _ _ name given _ =>
    have both := (leading (defaultName name given)).join_literal
      (by decide : Divider ", ".toList) braced
    exact both.join_literal (by decide) quoted
  next => exact (leading braced).join_literal (by decide) quoted
  next => exact leading quoted

theorem unmarkedLines_verbatim {text : String}
    (lines : ∀ line ∈ Text.lines text, Unmarked line.toList) : UnmarkedLines (verbatim text) := by
  rw [verbatim, List.map_eq_flatMap]
  apply UnmarkedLines.flatMap
  intro line listed
  split
  · exact .blank .nil
  · exact .line (lines line listed) .nil

theorem Module.unmarked_importLines {item : Module}
    (imports : ∀ part ∈ item.imports, Unmarked part.line.toList) :
    ∀ line ∈ item.importLines, Unmarked line.toList := by
  intro line member
  rw [importLines] at member
  have listed : line ∈ item.imports.eraseDups.map Import.line := by
    split at member
    · exact List.mem_mergeSort.mp member
    · exact member
  obtain ⟨part, kept, rfl⟩ := List.mem_map.mp listed
  exact imports part (List.mem_eraseDups.mp kept)

/-- A module is settled if its imports and its declarations have no marks. -/
theorem Module.settled_render {item : Module}
    (imports : ∀ part ∈ item.imports, Unmarked part.line.toList)
    (declarations : ∀ layout ∈ item.declarations, UnmarkedLines layout) :
    Settled item.render.toList := by
  rw [render_toList]
  apply Fragment.settled_charsAll
  rw [fragments]
  apply UnmarkedLines.separated
  rw [List.forall_mem_append]
  refine ⟨?_, declarations⟩
  split
  · exact fun _ member => absurd member List.not_mem_nil
  · rw [List.forall_mem_singleton]
    exact .lines (unmarked_importLines imports)

end Typescribe.TypeScript
