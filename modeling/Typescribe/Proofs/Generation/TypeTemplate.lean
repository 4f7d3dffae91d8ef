import Typescribe.Proofs.Generation.Emission
import Typescribe.Proofs.Layout
import Typescribe.Proofs.Placeholder.Template

/-!
# Templates of type modules

The module of a type is a template with one slot for each reference in it, in order. The template
depends on the declaration alone; what is known decides only what fills the slots.
-/

namespace Typescribe

open TypeScript Placeholder

/-- The name of a type in generated code, where it has one. -/
def TypeName.called (type : TypeName) : String :=
  type.className.toOption.getD ""

theorem TypeName.called_eq {type : TypeName} {name : String} (named : type.className = .ok name) :
    type.called = name := by
  rw [called, named]
  rfl

namespace Template

/-- Templates with an empty line between each and the next. -/
def separated (parts : List Template) : Template :=
  [Piece.text ['\n']].intercalate parts

theorem fill_separated (value : TypeName → List Char) (parts : List Template) :
    fill value (separated parts) = ['\n'].intercalate (parts.map (fill value)) :=
  intercalate_hom (fill value) fill_nil (fun _ _ => fill_append) _ _

theorem separated_cons_cons (first second : Template) (rest : List Template) :
    separated (first :: second :: rest) =
      first ++ (.text ['\n'] :: separated (second :: rest)) := by
  rw [separated, List.intercalate_cons_cons, List.append_assoc]
  rfl

theorem separated_singleton (part : Template) : separated [part] = part :=
  List.intercalate_singleton

theorem slots_separated (parts : List Template) :
    slots (separated parts) = parts.flatMap slots := by
  induction parts with
  | nil => rfl
  | cons first rest ih =>
    cases rest with
    | nil => rw [separated_singleton, List.flatMap_singleton]
    | cons second later =>
      rw [separated_cons_cons, slots_append, slots_text, ih]
      rfl

theorem Sound.separated {parts : List Template} (sound : ∀ part ∈ parts, Sound part) :
    Sound (Template.separated parts) := by
  induction parts with
  | nil => exact .nil
  | cons first rest ih =>
    obtain ⟨head, tail⟩ := List.forall_mem_cons.mp sound
    cases rest with
    | nil => rwa [separated_singleton]
    | cons second later =>
      rw [separated_cons_cons]
      exact head.append (.text (Settled.line .nil) (ih tail))

theorem Sound.flatMap {α : Type} {items : List α} {template : α → Template}
    (sound : ∀ item ∈ items, Sound (template item)) : Sound (items.flatMap template) := by
  intro piece member
  obtain ⟨item, listed, inside⟩ := List.mem_flatMap.mp member
  exact sound item listed piece inside

theorem fill_flatMap {α : Type} (value : TypeName → List Char) (items : List α)
    (template : α → Template) :
    fill value (items.flatMap template) = items.flatMap fun item => fill value (template item) :=
  List.flatMap_assoc

end Template

/-- What fills the slot of a type: the association of a known record, nothing for any other known
type, and the token of a type that is not known. -/
def KnownTypes.slotText (known : KnownTypes) (type : TypeName) : List Char :=
  match known.find? type with
  | some (.record _ _) =>
    (association type.called).toList ++ ['\n'] ++ Indent.standard.margin 1
  | some _ => []
  | none => tokenChars type.text.toList

/-- The property of a field without what stands before it. -/
def Field.bareProperty (inGroup : Bool) (field : Field) : Property where
  name := field.memberName
  type := if field.isRepeated then TypeName.listOf field.type.called else field.type.called
  isOptional := inGroup || field.cardinality == .optional
  initializer := field.initializer? (inGroup || field.cardinality == .optional)
  doc := Text.docLines field.documentation

/-- The template of a field inside a class. -/
def Field.template (inGroup : Bool) (field : Field) : Template :=
  .text (Fragment.charsAll .standard 1 (Fragment.comments (field.bareProperty inGroup).doc)) ::
    .text (Indent.standard.margin 1) ::
    ((if field.type.isScalar then [] else [.slot field.type]) ++
      [.text ((field.bareProperty inGroup).declaration.toList ++ ['\n'])])

/-- The template of a group of fields inside a class. -/
def OneOf.template (group : OneOf) : Template :=
  .text (Fragment.charsAll .standard 1
      (.comment (group.name ++ ": At most one of these fields will be non-null") ::
        Fragment.comments (Text.docLines group.documentation))) ::
    group.fields.flatMap (Field.template true)

namespace Record

/-- The template of all fields of a record. -/
def memberTemplate (record : Record) : Template :=
  Template.separated
    ((if record.fields.isEmpty then [] else [record.fields.flatMap (Field.template false)]) ++
      record.oneOfs.map OneOf.template)

/-- The text of a record's constructor inside the class, after an empty line. -/
def constructorChars (record : Record) : List Char :=
  match record.constructor? record.type.called with
  | .ok (some method) => '\n' :: Fragment.charsAll .standard 1 method.fragments
  | _ => []

/-- The head of a record's class. -/
def header (record : Record) : String :=
  Class.header
    { name := record.type.called, exported := if record.type.isRoot then .asDefault else .named }

/-- The template of a record's class. -/
def template (record : Record) : Template :=
  .text (Fragment.charsAll .standard 0
      (Fragment.comments (Text.docLines record.documentation))) ::
    if record.fields = [] ∧ record.oneOfs = [] then
      [.text (Indent.standard.lineChars 0 (record.header ++ " \x7b\x7d"))]
    else
      .text (Indent.standard.lineChars 0 (record.header ++ " \x7b")) ::
        (record.memberTemplate ++
          [.text (record.constructorChars), .text (Indent.standard.lineChars 0 "\x7d")])

end Record

namespace Declaration

/-- The template of a declaration, types nested in it apart. -/
def ownTemplate : Declaration → Template
  | record head _ => head.template
  | enumeration body =>
    [.text (Fragment.charsAll .standard 0
      ((body.declaration.toOption.map Enum.fragments).getD []))]
  | service _ => []

/-- The import lines of a type's module. -/
def importFragments (declaration : Declaration) : List Fragment :=
  (declaration.imports.toOption.getD []).eraseDups.map fun item => .line item.line

/-- The template of a type's module. -/
def template (declaration : Declaration) : Template :=
  Template.separated
    ((if declaration.importFragments.isEmpty then []
      else [[.text (Fragment.charsAll .standard 0 declaration.importFragments)]]) ++
      declaration.flatten.map ownTemplate)

end Declaration

variable {known : KnownTypes}

theorem fieldType_eq {type : TypeName} {repeated : Bool} {text : String}
    (typed : type.fieldType repeated = .ok text) :
    text = if repeated then TypeName.listOf type.called else type.called := by
  rw [TypeName.fieldType] at typed
  split at typed
  next name named =>
    rw [TypeName.called_eq named]
    exact (Except.ok.inj typed).symm
  next => cases typed

/-- What stands before a property is what fills its slot. -/
theorem TypeScript.Property.charsAll_fragments {type : TypeName} {property : Property}
    (decorated : known.decorator type = .ok property.decorator) :
    Fragment.charsAll .standard 1 property.fragments =
      Fragment.charsAll .standard 1 (Fragment.comments property.doc) ++
        (Indent.standard.margin 1 ++ ((if type.isScalar then [] else known.slotText type) ++
          (property.declaration.toList ++ ['\n']))) := by
  rw [Property.fragments, Fragment.charsAll_append]
  congr 1
  generalize property.decorator = decorator at decorated ⊢
  have atOnce : Fragment.charsAll .standard 1 [.line property.declaration] =
      Indent.standard.margin 1 ++ ([] ++ (property.declaration.toList ++ ['\n'])) := by
    simp [Fragment.chars, Indent.lineChars]
  rw [KnownTypes.decorator] at decorated
  split at decorated
  next scalar =>
    obtain rfl := Except.ok.inj decorated
    rw [if_pos scalar]
    exact atOnce
  next noScalar =>
    rw [if_neg noScalar, KnownTypes.slotText]
    split at decorated
    next head nested found =>
      rw [found]
      split at decorated
      next name named =>
        obtain rfl := Except.ok.inj decorated
        rw [TypeName.called_eq named]
        simp [Fragment.chars, Indent.lineChars]
      next => cases decorated
    next body found =>
      obtain rfl := Except.ok.inj decorated
      rw [found]
      exact atOnce
    next => cases decorated
    next unknown =>
      obtain rfl := Except.ok.inj decorated
      rw [unknown]
      simp [Fragment.chars, Indent.lineChars, token]

/-- A property is written as its template says. -/
theorem Field.fill_template {inGroup : Bool} {field : Field} {item : Property}
    (done : known.property inGroup field = .ok item) :
    Fragment.charsAll .standard 1 item.fragments =
      Template.fill known.slotText (field.template inGroup) := by
  obtain ⟨type, decorator, typed, decorated, rfl⟩ := KnownTypes.property_eq_ok.mp done
  have slot :
      Template.fill known.slotText (if field.type.isScalar then [] else [.slot field.type]) =
        if field.type.isScalar then [] else known.slotText field.type := by
    split <;> simp [Piece.fill]
  rw [Property.charsAll_fragments decorated, template]
  simp only [Template.fill_cons, Template.fill_append, Template.fill_nil, Piece.fill, slot,
    List.append_nil]
  rw [fieldType_eq typed]
  rfl

theorem TypeScript.Property.fragments_ne_nil (property : Property) : property.fragments ≠ [] := by
  rw [Property.fragments]
  apply List.append_ne_nil_of_right_ne_nil
  split <;> exact List.cons_ne_nil _ _

/-- Fields are written as their templates say, and nothing is written for none. -/
theorem fill_fields {inGroup : Bool} {fields : List Field} {layout : List Fragment}
    (done : known.propertyFragments inGroup fields = .ok layout) :
    Fragment.charsAll .standard 1 layout =
        Template.fill known.slotText (fields.flatMap (Field.template inGroup)) ∧
      (layout = [] ↔ fields = []) := by
  obtain ⟨properties, written, rest⟩ := bind_eq_ok.mp done
  obtain rfl := pure_eq_ok.mp rest
  constructor
  · have texts := map_eq_of_mapM written fun field _ item done => Field.fill_template done
    rw [Fragment.charsAll_flatMap, Template.fill_flatMap, List.flatMap_def, texts,
      ← List.flatMap_def]
  · have sameLength := (mapM_eq_ok.mp written).length_eq
    rw [List.flatMap_eq_nil_iff, ← List.length_eq_zero_iff (l := fields), sameLength,
      List.length_eq_zero_iff, List.eq_nil_iff_forall_not_mem]
    refine forall_congr' fun property => imp_congr_right fun _ => ?_
    simpa using property.fragments_ne_nil

/-- A group is written as its template says. -/
theorem fill_group {group : OneOf} {layout : List Fragment}
    (done : known.groupFragments group = .ok layout) :
    Fragment.charsAll .standard 1 layout = Template.fill known.slotText group.template ∧
      layout ≠ [] := by
  obtain ⟨properties, written, rest⟩ := bind_eq_ok.mp done
  obtain rfl := pure_eq_ok.mp rest
  refine ⟨?_, by simp⟩
  rw [OneOf.template, Template.fill_cons, Piece.fill, ← (fill_fields written).1,
    ← Fragment.charsAll_append]

theorem separated_eq_nil_iff {parts : List (List Fragment)} (nonempty : ∀ part ∈ parts, part ≠ []) :
    Class.separated parts = [] ↔ parts = [] := by
  cases parts with
  | nil => simp [Class.separated]
  | cons first rest =>
    have head := nonempty first List.mem_cons_self
    cases rest <;> simp [Class.separated, head]

/-- The members of a record's class are written as their template says, and nothing is written for
none. -/
theorem fill_members {record : Record} {layout : List Fragment}
    (done : known.memberFragments record = .ok layout) :
    Fragment.charsAll .standard 1 layout = Template.fill known.slotText record.memberTemplate ∧
      (layout = [] ↔ record.fields = [] ∧ record.oneOfs = []) := by
  obtain ⟨fields, fieldsWritten, rest⟩ := bind_eq_ok.mp done
  obtain ⟨groups, groupsWritten, rest⟩ := bind_eq_ok.mp rest
  obtain rfl := pure_eq_ok.mp rest
  obtain ⟨fieldsText, fieldsEmpty⟩ := fill_fields fieldsWritten
  have groupTexts := map_eq_of_mapM groupsWritten fun group _ layout done => (fill_group done).1
  have groupLength := (mapM_eq_ok.mp groupsWritten).length_eq
  have groupNonempty : ∀ layout ∈ groups, layout ≠ [] := by
    intro layout listed
    obtain ⟨group, -, written⟩ := exists_of_mem_mapM groupsWritten listed
    exact (fill_group written).2
  have groupsEmpty : groups = [] ↔ record.oneOfs = [] := by
    rw [← List.length_eq_zero_iff, ← groupLength, List.length_eq_zero_iff]
  constructor
  · rw [Fragment.charsAll_separated, Record.memberTemplate, Template.fill_separated]
    congr 1
    simp only [List.map_append, List.map_map]
    congr 1
    simp only [List.isEmpty_iff, fieldsEmpty]
    split
    · rfl
    · simp [fieldsText]
  · rw [separated_eq_nil_iff]
    · simp only [List.append_eq_nil_iff, groupsEmpty, List.isEmpty_iff, fieldsEmpty]
      refine and_congr_left fun _ => ?_
      split
      next empty => simp [empty]
      next some => simp [some]
    · intro part listed
      rcases List.mem_append.mp listed with isFields | isGroup
      · split at isFields
        · exact absurd isFields List.not_mem_nil
        next some =>
          rw [List.mem_singleton.mp isFields]
          simpa using some
      · exact groupNonempty part isGroup

theorem TypeScript.Constructor.fragments_ne_nil (method : Constructor) :
    method.fragments ≠ [] := by
  rw [Constructor.fragments]
  split <;> exact List.cons_ne_nil _ _

/-- A record without members has no constructor. -/
theorem Record.constructor?_eq_none {record : Record} {name : String}
    (noFields : record.fields = []) (noGroups : record.oneOfs = []) :
    record.constructor? name = .ok none := by
  have none : record.fieldCount = 0 := by
    simp [Record.fieldCount, Record.allFields, noFields, noGroups]
  rw [Record.constructor?, if_pos none]

/-- The class of a record is written as its template says. -/
theorem fill_record {record : Record} {item : TypeScript.Class}
    (done : known.recordClass record = .ok item) :
    Fragment.charsAll .standard 0 item.fragments =
      Template.fill known.slotText record.template := by
  obtain ⟨name, named, rest⟩ := bind_eq_ok.mp done
  obtain ⟨members, membersWritten, rest⟩ := bind_eq_ok.mp rest
  obtain ⟨method, methodWritten, rest⟩ := bind_eq_ok.mp rest
  obtain rfl := pure_eq_ok.mp rest
  obtain ⟨membersText, membersEmpty⟩ := fill_members membersWritten
  obtain rfl := TypeName.called_eq named
  rw [Class.fragments, Fragment.charsAll_append, Record.template, Template.fill_cons, Piece.fill]
  congr 1
  by_cases empty : record.fields = [] ∧ record.oneOfs = []
  · have noMembers : members = [] := membersEmpty.mpr empty
    rw [Record.constructor?_eq_none empty.1 empty.2, Except.ok.injEq] at methodWritten
    subst noMembers methodWritten
    rw [if_pos empty]
    simp [Fragment.chars, Piece.fill, Record.header, Class.header]
  · have someMembers : members ≠ [] := fun none => empty (membersEmpty.mp none)
    rw [if_neg empty]
    cases method with
    | none =>
      simp [Fragment.braced, Fragment.chars, Piece.fill, Record.header, Class.header, someMembers,
        Class.separated, Record.constructorChars, methodWritten, membersText]
    | some method =>
      simp [Fragment.braced, Fragment.chars, Piece.fill, Record.header, Class.header, someMembers,
        Class.separated, Record.constructorChars, methodWritten, membersText,
        method.fragments_ne_nil]

/-- A declaration is written as its template says. -/
theorem fill_declaration {declaration : Declaration} {layout : List Fragment}
    (done : known.declarationFragments declaration = .ok layout) :
    Fragment.charsAll .standard 0 layout =
      Template.fill known.slotText declaration.ownTemplate := by
  cases declaration with
  | record head nested =>
    obtain ⟨item, written, rest⟩ := bind_eq_ok.mp done
    obtain rfl := pure_eq_ok.mp rest
    exact fill_record written
  | enumeration body =>
    obtain ⟨item, written, rest⟩ := bind_eq_ok.mp done
    obtain rfl := pure_eq_ok.mp rest
    rw [Declaration.ownTemplate, written]
    exact (List.append_nil _).symm
  | service body => cases done

/-- The import lines of a written module depend on the declaration alone. -/
theorem importLines_eq {root : Declaration} {item : Module}
    (done : known.typeModule root = .ok item) :
    item.importLines.map Fragment.line = root.importFragments := by
  obtain ⟨layouts, -, rest⟩ := bind_eq_ok.mp done
  obtain ⟨imports, imported, rest⟩ := bind_eq_ok.mp rest
  obtain rfl := pure_eq_ok.mp rest
  rw [Declaration.importFragments, imported, Module.importLines]
  exact List.map_map

/-- The module of a type is its template, filled with what is known. -/
theorem render_eq_fill {root : Declaration} {item : Module}
    (done : known.typeModule root = .ok item) :
    item.render = String.ofList (Template.fill known.slotText root.template) := by
  have lines := importLines_eq done
  obtain ⟨layouts, written, rest⟩ := bind_eq_ok.mp done
  obtain ⟨imports, imported, rest⟩ := bind_eq_ok.mp rest
  obtain rfl := pure_eq_ok.mp rest
  have texts := map_eq_of_mapM written fun part _ layout done => fill_declaration done
  rw [← String.toList_inj, Module.render_toList, String.toList_ofList, Module.fragments, lines,
    Fragment.charsAll_separated, Declaration.template, Template.fill_separated]
  congr 1
  rw [List.map_append, List.map_append, texts, List.map_map]
  congr 1
  split
  · rfl
  · simp [Piece.fill]

theorem slots_fields (inGroup : Bool) (fields : List Field) :
    Template.slots (fields.flatMap (Field.template inGroup)) =
      (fields.map Field.type).filter fun type => !type.isScalar := by
  induction fields with
  | nil => rfl
  | cons field rest ih =>
    rw [List.flatMap_cons, Template.slots_append, ih, List.map_cons, List.filter_cons,
      Field.template]
    cases field.type.isScalar <;> rfl

theorem slots_members (record : Record) :
    Template.slots record.memberTemplate = record.referencedTypes := by
  have groups : (record.oneOfs.map OneOf.template).flatMap Template.slots =
      ((record.oneOfs.flatMap OneOf.fields).map Field.type).filter fun type => !type.isScalar := by
    rw [List.flatMap_map, List.map_flatMap, List.filter_flatMap]
    congr 1
    funext group
    exact slots_fields true group.fields
  rw [Record.memberTemplate, Template.slots_separated, List.flatMap_append, groups,
    Record.referencedTypes, Record.allFields, List.map_append, List.filter_append]
  congr 1
  cases record.fields with
  | nil => rfl
  | cons field rest => exact (List.append_nil _).trans (slots_fields false (field :: rest))

theorem slots_ownTemplate (declaration : Declaration) :
    Template.slots declaration.ownTemplate = declaration.ownReferences := by
  cases declaration with
  | record head nested =>
    rw [Declaration.ownTemplate, Record.template, Template.slots_text]
    split
    next empty =>
      have none : head.allFields = [] := by simp [Record.allFields, empty.1, empty.2]
      simp [Declaration.ownReferences, Declaration.ownFields, none]
    next =>
      rw [Template.slots_text, Template.slots_append, slots_members]
      exact List.append_nil _
  | enumeration body => rfl
  | service body => rfl

/-- A type's module has a slot for each reference, in order. -/
theorem slots_template (root : Declaration) :
    Template.slots root.template = root.referencedTypes := by
  rw [Declaration.template, Template.slots_separated, List.flatMap_append, List.flatMap_map,
    Declaration.referencedTypes_eq]
  simp only [slots_ownTemplate]
  split <;> rfl

end Typescribe
