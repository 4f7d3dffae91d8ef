import Typescribe.Proofs.Generation.Constructors
import Typescribe.Proofs.Generation.Emissions
import Typescribe.Proofs.TypeScript.Lexemes

/-!
# Documentation stays in comments and default values in literals

The comments of a module are the lines of the documentations of what it declares, and a heading for
each group of fields. The default value of a string is a literal where its member is declared and,
for a positional field, where the constructor takes it. Neither is searched for characters other
than the line feed that end a line of code, and in a literal not even for this one: a text is
contained in its comments or its literal exactly if it has none that matters there.
-/

namespace Typescribe

open TypeScript Text

namespace Fragment

mutual

/-- The lines of code and the comments that a fragment is laid out to, at any depth. -/
def rows : Fragment → List Fragment
  | .line text => [.line text]
  | .blank => []
  | .comment text => [.comment text]
  | .indented body => rowsAll body
  | .block header body close => .line header :: (rowsAll body ++ close.toList.map .line)

/-- The lines of code and the comments that fragments are laid out to, at any depth. -/
def rowsAll : List Fragment → List Fragment
  | [] => []
  | fragment :: rest => rows fragment ++ rowsAll rest

end

/-- What a comment says. -/
def comment? : Fragment → Option String
  | .comment text => some text
  | _ => none

/-- What the comments say among fragments, at any depth and in order. -/
def commentTexts (fragments : List Fragment) : List String :=
  (rowsAll fragments).filterMap comment?

variable {first second : List Fragment}

@[simp] theorem rowsAll_nil : rowsAll [] = [] := by
  rw [rowsAll]

@[simp] theorem rowsAll_cons (fragment : Fragment) (rest : List Fragment) :
    rowsAll (fragment :: rest) = rows fragment ++ rowsAll rest := by
  rw [rowsAll]

@[simp] theorem rowsAll_append : rowsAll (first ++ second) = rowsAll first ++ rowsAll second := by
  induction first with
  | nil => rw [List.nil_append, rowsAll_nil, List.nil_append]
  | cons fragment rest ih =>
    rw [List.cons_append, rowsAll_cons, rowsAll_cons, ih, List.append_assoc]

@[simp] theorem rowsAll_flatMap {α : Type} (items : List α) (layout : α → List Fragment) :
    rowsAll (items.flatMap layout) = items.flatMap fun item => rowsAll (layout item) := by
  induction items with
  | nil => exact rowsAll_nil
  | cons item rest ih => rw [List.flatMap_cons, List.flatMap_cons, rowsAll_append, ih]

@[simp] theorem rowsAll_lines (texts : List String) :
    rowsAll (texts.map .line) = texts.map .line := by
  induction texts with
  | nil => exact rowsAll_nil
  | cons text rest ih => rw [List.map_cons, rowsAll_cons, ih, rows, List.singleton_append]

@[simp] theorem rowsAll_comments (texts : List String) :
    rowsAll (comments texts) = comments texts := by
  induction texts with
  | nil => exact rowsAll_nil
  | cons text rest ih =>
    rw [comments, List.map_cons, rowsAll_cons, ← comments, ih, rows, List.singleton_append]

@[simp] theorem rows_braced (header : String) (body : List Fragment) :
    rows (braced header body) = .line (header ++ " \x7b") :: (rowsAll body ++ [.line "\x7d"]) := by
  rw [braced, rows, Option.toList_some, List.map_singleton]

@[simp] theorem rowsAll_separated (parts : List (List Fragment)) :
    rowsAll (Class.separated parts) = parts.flatMap rowsAll :=
  hom_separated rowsAll rowsAll_nil (fun _ _ => rowsAll_append) (by simp [rows]) parts

@[simp] theorem comment?_line (text : String) : comment? (.line text) = none := rfl

@[simp] theorem filterMap_comment?_cons_line (text : String) (rest : List Fragment) :
    (.line text :: rest).filterMap comment? = rest.filterMap comment? :=
  rfl

@[simp] theorem filterMap_comment?_lines (texts : List String) :
    (texts.map Fragment.line).filterMap comment? = [] := by
  rw [List.filterMap_map, List.filterMap_eq_nil_iff]
  exact fun _ _ => rfl

@[simp] theorem filterMap_comment?_comments (texts : List String) :
    (comments texts).filterMap comment? = texts := by
  rw [comments, List.filterMap_map]
  exact List.filterMap_some

theorem chars_block (unit : Indent) (depth : Nat) (header : String) (body : List Fragment)
    (close : Option String) :
    chars unit depth (.block header body close) =
      unit.lineChars depth header ++
        (charsAll unit (depth + 1) body ++ close.toList.flatMap (unit.lineChars depth)) := by
  cases close <;> simp [chars]

mutual

theorem exists_of_mem_rows (unit : Indent) (depth : Nat) {fragment row : Fragment}
    (member : row ∈ fragment.rows) :
    ∃ before deeper after, EndsLine before ∧
      fragment.chars unit depth = before ++ row.chars unit deeper ++ after := by
  cases fragment with
  | line text =>
    rw [rows, List.mem_singleton] at member
    exact ⟨[], depth, [], endsLine_nil, by simp [member]⟩
  | blank =>
    rw [rows] at member
    exact absurd member List.not_mem_nil
  | comment text =>
    rw [rows, List.mem_singleton] at member
    exact ⟨[], depth, [], endsLine_nil, by simp [member]⟩
  | indented body =>
    rw [rows] at member
    rw [chars]
    exact exists_of_mem_rowsAll unit (depth + 1) member
  | block header body close =>
    rw [rows, List.mem_cons, List.mem_append, List.mem_map] at member
    rw [chars_block]
    have opened : EndsLine (unit.lineChars depth header) := endsLine_concat _
    rcases member with rfl | inside | ⟨text, closes, rfl⟩
    · exact ⟨[], depth, _, endsLine_nil, by rw [chars, List.nil_append]⟩
    · obtain ⟨before, deeper, after, ends, laidOut⟩ := exists_of_mem_rowsAll unit (depth + 1) inside
      refine ⟨unit.lineChars depth header ++ before, deeper,
        after ++ close.toList.flatMap (unit.lineChars depth), opened.append ends, ?_⟩
      simp only [laidOut, List.append_assoc]
    · have filled : EndsLine (charsAll unit (depth + 1) body) :=
        getLast?_charsAll unit (depth + 1) body
      refine ⟨_, depth, [], opened.append filled, ?_⟩
      rw [Option.mem_toList.mp closes]
      simp [chars]

/-- Every line of code and every comment stands on a line of the text. -/
theorem exists_of_mem_rowsAll (unit : Indent) (depth : Nat) {fragments : List Fragment}
    {row : Fragment} (member : row ∈ rowsAll fragments) :
    ∃ before deeper after, EndsLine before ∧
      charsAll unit depth fragments = before ++ row.chars unit deeper ++ after := by
  cases fragments with
  | nil =>
    rw [rowsAll_nil] at member
    exact absurd member List.not_mem_nil
  | cons fragment rest =>
    rw [rowsAll_cons, List.mem_append] at member
    rw [charsAll_cons]
    rcases member with here | later
    · obtain ⟨before, deeper, after, ends, laidOut⟩ := exists_of_mem_rows unit depth here
      exact ⟨before, deeper, _, ends, by rw [laidOut, List.append_assoc]⟩
    · obtain ⟨before, deeper, after, ends, laidOut⟩ := exists_of_mem_rowsAll unit depth later
      have leading : EndsLine (fragment.chars unit depth) := getLast?_chars unit depth fragment
      exact ⟨_, deeper, after, leading.append ends, by rw [laidOut]; simp only [List.append_assoc]⟩

end

end Fragment

namespace TypeScript

open Fragment

theorem Property.commentTexts_fragments (property : Property) :
    commentTexts property.fragments = property.doc := by
  rw [commentTexts, Property.fragments]
  cases property.decorator <;> simp [rows]

theorem Method.commentTexts_fragments (method : Method) :
    commentTexts method.fragments = method.doc := by
  simp [commentTexts, Method.fragments]

theorem Enum.commentTexts_fragments (item : Enum) :
    commentTexts item.fragments = item.doc ++ item.members.flatMap EnumMember.doc := by
  have members : (item.members.flatMap fun member =>
      (rowsAll (memberFragments member)).filterMap comment?) =
        item.members.flatMap EnumMember.doc := by
    congr 1
    funext member
    simp [memberFragments, rows]
  have ending : (rowsAll (if item.isDefaultExport then
      [.blank, .line (defaultExport item.name)] else [])).filterMap comment? = [] := by
    split <;> simp [rows]
  rw [commentTexts, Enum.fragments, ← members]
  split
  next none => simp [List.isEmpty_iff.mp none, rows, ending]
  next => simp [List.filterMap_flatMap, ending]

/-- A constructor has no comments, and each of its parameters has a line if lines are asked for. -/
theorem Constructor.rows_fragments (method : Constructor) :
    commentTexts method.fragments = [] ∧
      (method.multiline = true → ∀ param ∈ method.params, ∃ ending ∈ ["", ","],
        .line (param.render ++ ending) ∈ rowsAll method.fragments) := by
  obtain ⟨texts, laidOut, each, -⟩ := exists_paramLines_eq method.signature
  rw [fragments, body_eq, laidOut]
  split
  next =>
    refine ⟨by simp [commentTexts, rows], fun _ param listed => ?_⟩
    obtain ⟨ending, allowed, inside⟩ := each param (List.mem_append_left _ listed)
    refine ⟨ending, allowed, ?_⟩
    simp [rows, inside]
  next oneLine =>
    refine ⟨by simp [commentTexts], fun ownLines param listed => ?_⟩
    simp [ownLines, List.ne_nil_of_mem listed] at oneLine

namespace Class

/-- The rows of a class are its documentation, its head, the rows of its sections and its end. -/
theorem exists_rowsAll_eq (item : Class) :
    ∃ opening closing : List String,
      rowsAll item.fragments = comments item.doc ++ (opening.map .line ++
        (item.sections.flatMap rowsAll ++ closing.map .line)) := by
  rw [Class.fragments, rowsAll_append, rowsAll_comments,
    ← flatMap_filter_isEmpty rowsAll_nil]
  split
  next none => exact ⟨[item.header ++ " \x7b\x7d"], [], by simp [none, rows]⟩
  next => exact ⟨[item.header ++ " \x7b"], ["\x7d"], by simp⟩

theorem commentTexts_fragments (item : Class) :
    commentTexts item.fragments = item.doc ++ item.sections.flatMap commentTexts := by
  obtain ⟨opening, closing, whole⟩ := item.exists_rowsAll_eq
  simp only [commentTexts, whole, List.filterMap_append, List.filterMap_flatMap,
    filterMap_comment?_comments, filterMap_comment?_lines, List.nil_append, List.append_nil]
  rfl

theorem mem_rowsAll_fragments {item : Class} {part : List Fragment} {row : Fragment}
    (listed : part ∈ item.sections) (member : row ∈ rowsAll part) :
    row ∈ rowsAll item.fragments := by
  obtain ⟨opening, closing, whole⟩ := item.exists_rowsAll_eq
  have inside : row ∈ item.sections.flatMap rowsAll := List.mem_flatMap.mpr ⟨part, listed, member⟩
  rw [whole]
  exact List.mem_append_right _ (List.mem_append_right _ (List.mem_append_left _ inside))

end Class

namespace Module

theorem rowsAll_fragments (item : Module) :
    rowsAll item.fragments =
      item.importLines.map .line ++ item.declarations.flatMap rowsAll := by
  rw [fragments, rowsAll_separated, List.flatMap_append]
  congr 1
  split
  next none => rw [List.isEmpty_iff.mp none, List.flatMap_nil]
  next => rw [List.flatMap_singleton, rowsAll_lines]

theorem commentTexts_fragments (item : Module) :
    commentTexts item.fragments = item.declarations.flatMap commentTexts := by
  rw [commentTexts, rowsAll_fragments, List.filterMap_append, filterMap_comment?_lines,
    List.nil_append, List.filterMap_flatMap]
  rfl

/-- The text of a module has a line, and the rest of the text stands behind it. -/
def Writes (item : Module) (line : String) (after : List Char) : Prop :=
  ∃ before depth, EndsLine before ∧
    item.render.toList = before ++ Indent.standard.lineChars depth line ++ after

/-- A row of a module is a line of its text. -/
theorem exists_writes {item : Module} {row : Fragment} {line : String}
    (member : row ∈ rowsAll item.fragments)
    (laidOut : ∀ depth, row.chars .standard depth = Indent.standard.lineChars depth line) :
    ∃ after, item.Writes line after := by
  obtain ⟨before, depth, after, ends, whole⟩ := exists_of_mem_rowsAll .standard 0 member
  rw [laidOut] at whole
  exact ⟨after, before, depth, ends, by rw [render_toList, whole]⟩

end Module

end TypeScript

/-- What stands in comments: a documentation, or the heading of a group of fields. -/
inductive Note where
  | documentation (text : String)
  | heading (group : String)

/-- The comments of a note. -/
def Note.lines : Note → List String
  | documentation text => docLines text
  | heading group => [group ++ ": At most one of these fields will be non-null"]

/-- What stands in the comments of a group: its heading, its documentation and those of its
fields. -/
def OneOf.notes (group : OneOf) : List Note :=
  .heading group.name :: .documentation group.documentation ::
    group.fields.map fun field => .documentation field.documentation

/-- What stands in the comments of a declaration, the types nested in it apart. -/
def Declaration.notes : Declaration → List Note
  | .record head _ =>
    .documentation head.documentation ::
      ((head.fields.map fun field => .documentation field.documentation) ++
        head.oneOfs.flatMap OneOf.notes)
  | .enumeration body =>
    .documentation body.documentation ::
      body.constants.map fun constant => .documentation constant.documentation
  | .service body =>
    .documentation body.documentation :: body.rpcs.map fun rpc => .documentation rpc.documentation

/-- The fields of a record, each with whether it is in a group. -/
def Record.places (record : Record) : List (Bool × Field) :=
  (record.fields.map fun field => (false, field)) ++
    record.oneOfs.flatMap fun group => group.fields.map fun field => (true, field)

/-- What stands before the default value of a string field. -/
def Field.stringLead (inGroup : Bool) (field : Field) : String :=
  field.memberName ++ (if field.canBeUnset inGroup then "?" else "") ++ ": string" ++
    (if field.cardinality = .repeated then "[]" else "") ++ " = "

theorem TypeName.called_string : (⟨"string"⟩ : TypeName).called = "string" := by
  decide

namespace Field

variable {field : Field} {value : String}

/-- The member of a string field ends with its default value. -/
theorem member_eq_stringLead (inGroup : Bool) (isString : field.type = ⟨"string"⟩)
    (given : field.defaultValue = some value) :
    field.member inGroup = field.stringLead inGroup ++ quote value := by
  rw [member, startValue?, given, stringLead, isString, TypeName.called_string]
  simp [String.append_assoc]

/-- The parameter of a required string field ends like its member. -/
theorem parameter_eq_stringLead (required : field.cardinality = .required)
    (isString : field.type = ⟨"string"⟩) (given : field.defaultValue = some value) :
    field.parameter = field.stringLead false ++ quote value := by
  rw [← String.toList_inj, parameter, given, stringLead, isString, TypeName.called_string]
  simp [canBeUnset, required]

end Field

namespace KnownTypes

open Fragment

variable {known : KnownTypes} {layout : List Fragment}

/-- The rows of a property: its comments, and for a string the declaration of its member. -/
theorem rows_property {inGroup : Bool} {field : Field} {property : Property}
    (done : known.property inGroup field = .ok property) :
    property.doc = docLines field.documentation ∧
      (field.type = ⟨"string"⟩ → .line (field.member inGroup) ∈ rowsAll property.fragments) := by
  obtain ⟨type, decorator, typed, decorated, rfl⟩ := property_eq_ok.mp done
  refine ⟨rfl, fun isString => ?_⟩
  -- A string is a scalar, so nothing stands before its declaration.
  rw [isString, KnownTypes.decorator, if_pos (by decide)] at decorated
  obtain rfl := Except.ok.inj decorated
  rw [← Field.declaration_bareProperty, fieldType_eq typed, Property.fragments, rowsAll_append]
  refine List.mem_append_right _ ?_
  simp [rows, Field.bareProperty, Property.declaration]

theorem rows_propertyFragments {inGroup : Bool} {fields : List Field}
    (done : known.propertyFragments inGroup fields = .ok layout) :
    commentTexts layout = (fields.flatMap fun field => docLines field.documentation) ∧
      ∀ field ∈ fields, field.type = ⟨"string"⟩ →
        .line (field.member inGroup) ∈ rowsAll layout := by
  obtain ⟨properties, written, rest⟩ := bind_eq_ok.mp done
  obtain rfl := pure_eq_ok.mp rest
  rw [commentTexts, rowsAll_flatMap]
  constructor
  · rw [List.filterMap_flatMap]
    refine flatMap_eq_of_mapM written fun field _ property done => ?_
    rw [← commentTexts, Property.commentTexts_fragments, (rows_property done).1]
  · intro field listed isString
    obtain ⟨property, found, done⟩ := exists_mem_of_mapM written listed
    exact List.mem_flatMap.mpr ⟨property, found, (rows_property done).2 isString⟩

theorem rows_groupFragments {group : OneOf} (done : known.groupFragments group = .ok layout) :
    commentTexts layout = group.notes.flatMap Note.lines ∧
      ∀ field ∈ group.fields, field.type = ⟨"string"⟩ →
        .line (field.member true) ∈ rowsAll layout := by
  obtain ⟨properties, written, rest⟩ := bind_eq_ok.mp done
  obtain rfl := pure_eq_ok.mp rest
  obtain ⟨said, members⟩ := rows_propertyFragments written
  constructor
  · rw [commentTexts] at said
    simp [commentTexts, rows, comment?, said, OneOf.notes, Note.lines, List.flatMap_map]
  · intro field listed isString
    rw [List.cons_append, rowsAll_cons, rowsAll_append]
    exact List.mem_append_right _ (List.mem_append_right _ (members field listed isString))

theorem rows_memberFragments {record : Record} (done : known.memberFragments record = .ok layout) :
    commentTexts layout = (record.fields.flatMap fun field => docLines field.documentation) ++
        (record.oneOfs.flatMap OneOf.notes).flatMap Note.lines ∧
      ∀ place ∈ record.places, place.2.type = ⟨"string"⟩ →
        .line (place.2.member place.1) ∈ rowsAll layout := by
  obtain ⟨fields, writtenFields, rest⟩ := bind_eq_ok.mp done
  obtain ⟨groups, writtenGroups, rest⟩ := bind_eq_ok.mp rest
  obtain rfl := pure_eq_ok.mp rest
  obtain ⟨said, members⟩ := rows_propertyFragments writtenFields
  have whole : rowsAll (Class.separated ((if fields.isEmpty then [] else [fields]) ++ groups)) =
      rowsAll fields ++ groups.flatMap rowsAll := by
    rw [rowsAll_separated, List.flatMap_append]
    congr 1
    split
    next none => simp [List.isEmpty_iff.mp none]
    next => rw [List.flatMap_singleton]
  rw [commentTexts, whole]
  constructor
  · rw [List.filterMap_append, List.filterMap_flatMap, ← commentTexts, said, List.flatMap_assoc]
    congr 1
    exact flatMap_eq_of_mapM writtenGroups fun group _ layout done => (rows_groupFragments done).1
  · intro place listed isString
    rw [Record.places, List.mem_append, List.mem_map, List.mem_flatMap] at listed
    rcases listed with ⟨field, declared, rfl⟩ | ⟨group, isGroup, inside⟩
    · exact List.mem_append_left _ (members field declared isString)
    · obtain ⟨field, grouped, rfl⟩ := List.mem_map.mp inside
      obtain ⟨layout, found, done⟩ := exists_mem_of_mapM writtenGroups isGroup
      refine List.mem_append_right _ (List.mem_flatMap.mpr ⟨layout, found, ?_⟩)
      exact (rows_groupFragments done).2 field grouped isString

/-- The rows of a record's class: its notes, and the lines for the members and parameters of its
fields. -/
theorem rows_recordClass {record : Record} {item : TypeScript.Class}
    (done : known.recordClass record = .ok item) (nested : List Declaration) :
    commentTexts item.fragments = (Declaration.record record nested).notes.flatMap Note.lines ∧
      (∀ place ∈ record.places, place.2.type = ⟨"string"⟩ →
        .line (place.2.member place.1) ∈ rowsAll item.fragments) ∧
      ∀ field ∈ record.positional, ∃ ending ∈ ["", ","],
        .line (field.parameter ++ ending) ∈ rowsAll item.fragments := by
  obtain ⟨name, named, rest⟩ := bind_eq_ok.mp done
  obtain ⟨members, writtenMembers, rest⟩ := bind_eq_ok.mp rest
  obtain ⟨method, writtenMethod, rest⟩ := bind_eq_ok.mp rest
  obtain rfl := pure_eq_ok.mp rest
  obtain ⟨said, declared⟩ := rows_memberFragments writtenMembers
  obtain ⟨silent, taken⟩ : commentTexts ((method.map Constructor.fragments).getD []) = [] ∧
      ∀ field ∈ record.positional, ∃ ending ∈ ["", ","],
        .line (field.parameter ++ ending) ∈
          rowsAll ((method.map Constructor.fragments).getD []) := by
    obtain ⟨empty, rfl⟩ | ⟨-, params, written, rfl⟩ := Record.constructor?_eq_ok writtenMethod
    · -- Without fields there is no constructor, and no field that it could take.
      refine ⟨by simp [commentTexts], fun field listed => ?_⟩
      have inside := List.mem_append_left (record.oneOfs.flatMap OneOf.fields)
        (List.mem_filter.mp listed).1
      rw [← Record.allFields, empty] at inside
      exact absurd inside List.not_mem_nil
    · obtain ⟨silent, each⟩ := (record.constructorOf name params).rows_fragments
      refine ⟨silent, fun field listed => ?_⟩
      obtain ⟨param, found, done⟩ := exists_mem_of_mapM written listed
      rw [← (Record.param_eq_ok done).2]
      exact each rfl param found
  refine ⟨?_, fun place listed isString => ?_, fun field listed => ?_⟩
  · rw [Class.commentTexts_fragments]
    simp [said, silent, Declaration.notes, Note.lines, List.flatMap_map]
  · exact Class.mem_rowsAll_fragments List.mem_cons_self (declared place listed isString)
  · obtain ⟨ending, allowed, inside⟩ := taken field listed
    exact ⟨ending, allowed, Class.mem_rowsAll_fragments (by simp) inside⟩

theorem commentTexts_declarationFragments {declaration : Declaration}
    (done : known.declarationFragments declaration = .ok layout) :
    commentTexts layout = declaration.notes.flatMap Note.lines := by
  cases declaration with
  | record head nested =>
    obtain ⟨item, written, rest⟩ := bind_eq_ok.mp done
    obtain rfl := pure_eq_ok.mp rest
    exact (rows_recordClass written nested).1
  | enumeration body =>
    obtain ⟨item, written, rest⟩ := bind_eq_ok.mp done
    obtain rfl := pure_eq_ok.mp rest
    obtain ⟨name, -, rest⟩ := bind_eq_ok.mp written
    obtain rfl := pure_eq_ok.mp rest
    rw [Enum.commentTexts_fragments]
    simp [Declaration.notes, Note.lines, List.flatMap_map]
  | service body => cases done

end KnownTypes

theorem Service.commentTexts_clientClass {known : KnownTypes} {service : Service}
    {rpcs : List ResolvedRpc} (resolved : service.rpcs.mapM (known.resolveRpc service) = .ok rpcs) :
    Fragment.commentTexts (service.clientClass rpcs).fragments =
      (Declaration.service service).notes.flatMap Note.lines := by
  have methods : (rpcs.flatMap fun answer =>
        Fragment.commentTexts (answer.method service).fragments) =
      service.rpcs.flatMap fun rpc => docLines rpc.documentation := by
    refine flatMap_eq_of_mapM resolved fun rpc _ answer found => ?_
    rw [Method.commentTexts_fragments, ← (KnownTypes.resolveRpc_eq_ok.mp found).1]
    rfl
  have silent := (Constructor.rows_fragments
    { params := [{ name := "client", type := clientType }] }).1
  have client : Fragment.commentTexts [.line ("client: " ++ clientType)] = [] := rfl
  rw [Class.commentTexts_fragments]
  simp [clientClass, silent, client, List.flatMap_map, methods, Declaration.notes, Note.lines]

namespace Emission

open Fragment

variable {emission : Emission} {item : Module}

theorem service_or_data (done : emission.module? = .ok item) :
    (∃ service, emission.root = .service service ∧
      emission.known.serviceModule service = .ok item) ∨
    emission.known.typeModule emission.root = .ok item := by
  obtain ⟨known, root⟩ := emission
  cases root with
  | record head nested => exact .inr done
  | enumeration body => exact .inr done
  | service body => exact .inl ⟨body, rfl, done⟩

/-- The comments of a module are the notes of its declarations. -/
theorem commentTexts_module (done : emission.module? = .ok item) :
    commentTexts item.fragments =
      (emission.root.flatten.flatMap Declaration.notes).flatMap Note.lines := by
  rw [Module.commentTexts_fragments, List.flatMap_assoc]
  obtain ⟨service, isService, written⟩ | written := service_or_data done
  · obtain ⟨rpcs, resolved, rest⟩ := bind_eq_ok.mp written
    obtain ⟨imports, -, rest⟩ := bind_eq_ok.mp rest
    obtain rfl := pure_eq_ok.mp rest
    rw [isService, Declaration.flatten, List.flatMap_singleton, List.flatMap_singleton]
    exact Service.commentTexts_clientClass resolved
  · obtain ⟨declarations, each, rest⟩ := bind_eq_ok.mp written
    obtain ⟨imports, -, rest⟩ := bind_eq_ok.mp rest
    obtain rfl := pure_eq_ok.mp rest
    exact flatMap_eq_of_mapM each fun declaration _ layout done =>
      KnownTypes.commentTexts_declarationFragments done

/-- The class of a record is part of the module that the record is declared in. -/
theorem exists_recordClass (done : emission.module? = .ok item) {head : Record}
    {nested : List Declaration} (listed : .record head nested ∈ emission.root.flatten) :
    ∃ part, emission.known.recordClass head = .ok part ∧
      ∀ row ∈ rowsAll part.fragments, row ∈ rowsAll item.fragments := by
  obtain ⟨service, isService, -⟩ | written := service_or_data done
  · rw [isService, Declaration.flatten, List.mem_singleton] at listed
    cases listed
  · obtain ⟨declarations, each, rest⟩ := bind_eq_ok.mp written
    obtain ⟨imports, -, rest⟩ := bind_eq_ok.mp rest
    obtain rfl := pure_eq_ok.mp rest
    obtain ⟨layout, found, done⟩ := exists_mem_of_mapM each listed
    obtain ⟨part, isPart, rest⟩ := bind_eq_ok.mp done
    obtain rfl := pure_eq_ok.mp rest
    refine ⟨part, isPart, fun row inside => ?_⟩
    rw [Module.rowsAll_fragments]
    exact List.mem_append_right _ (List.mem_flatMap.mpr ⟨_, found, inside⟩)

/-- Every line of a documentation is the text of a comment in the module. -/
theorem exists_writes_commentText (done : emission.module? = .ok item) {declaration : Declaration}
    (declared : declaration ∈ emission.root.flatten) {documentation : String}
    (documented : .documentation documentation ∈ declaration.notes) {line : String}
    (listed : line ∈ docLines documentation) : ∃ after, item.Writes (commentText line) after := by
  have said : line ∈ commentTexts item.fragments := by
    rw [commentTexts_module done, List.flatMap_assoc]
    exact List.mem_flatMap.mpr ⟨declaration, declared,
      List.mem_flatMap.mpr ⟨_, documented, listed⟩⟩
  obtain ⟨row, member, isComment⟩ := List.mem_filterMap.mp said
  cases row with
  | comment text =>
    obtain rfl := Option.some.inj isComment
    exact Module.exists_writes member fun depth => by rw [chars]
  | line text => cases isComment
  | blank => cases isComment
  | indented body => cases isComment
  | block header body close => cases isComment

section

variable (done : emission.module? = .ok item) {head : Record} {nested : List Declaration}
  (listed : .record head nested ∈ emission.root.flatten) {field : Field} {value : String}
  (isString : field.type = ⟨"string"⟩) (given : field.defaultValue = some value)
include done listed isString given

/-- The default value of a string field is a literal where its member is declared. -/
theorem exists_writes_member {inGroup : Bool} (placed : (inGroup, field) ∈ head.places) :
    ∃ after, item.Writes (field.stringLead inGroup ++ quote value) after := by
  obtain ⟨part, isPart, inside⟩ := exists_recordClass done listed
  have member := inside _ ((KnownTypes.rows_recordClass isPart nested).2.1 _ placed isString)
  rw [Field.member_eq_stringLead inGroup isString given] at member
  exact Module.exists_writes member fun depth => by rw [chars]

/-- The default value of a positional string field is a literal where the constructor takes it. -/
theorem exists_writes_parameter (positional : field ∈ head.positional) :
    ∃ ending ∈ ["", ","], ∃ after,
      item.Writes (field.stringLead false ++ quote value ++ ending) after := by
  obtain ⟨part, isPart, inside⟩ := exists_recordClass done listed
  obtain ⟨ending, allowed, taken⟩ :=
    (KnownTypes.rows_recordClass isPart nested).2.2 field positional
  have required : field.cardinality = .required :=
    of_decide_eq_true (List.mem_filter.mp positional).2
  have member := inside _ taken
  rw [Field.parameter_eq_stringLead required isString given] at member
  exact ⟨ending, allowed, Module.exists_writes member fun depth => by rw [chars]⟩

end

end Emission

/-- The comments of a module are the lines of its documentations, and the headings of groups. Every
line of a documentation is in a comment of its own, which is read as a whole exactly if it is one
line of code; and all of them are exactly if the documentation does not overrun its comments. The
default value of a string that is not quoted yet is in a literal with its member and with its
parameter, which is one line, and is read back, exactly if the value is one line. -/
theorem texts_contained_iff {emission : Emission} {item : Module}
    (done : emission.module? = .ok item) :
    Fragment.commentTexts item.fragments =
        (emission.root.flatten.flatMap Declaration.notes).flatMap Note.lines ∧
    (∀ declaration ∈ emission.root.flatten, ∀ documentation,
      .documentation documentation ∈ declaration.notes →
        (∀ line ∈ docLines documentation, ∃ comment after,
          comment = (Fragment.commentText line).toList ∧
            item.Writes (Fragment.commentText line) after ∧
            (readComment? (comment ++ '\n' :: after) = some (comment, '\n' :: after) ↔
              OneLine comment)) ∧
        ((∀ line ∈ docLines documentation, OneLine (Fragment.commentText line).toList) ↔
          ¬ Overruns documentation.toList)) ∧
    ∀ head nested, .record head nested ∈ emission.root.flatten →
      ∀ inGroup field, (inGroup, field) ∈ head.places → field.type = ⟨"string"⟩ →
        ∀ value, field.defaultValue = some value → ¬ Quoted value.toList →
          (∃ after, item.Writes (field.stringLead inGroup ++ quote value) after) ∧
          (field ∈ head.positional → ∃ ending ∈ ["", ","], ∃ after,
            item.Writes (field.stringLead false ++ quote value ++ ending) after) ∧
          (OneLine (quote value).toList ↔ OneLine value.toList) ∧
          ∃ rest, (quote value).toList = '"' :: rest ∧ ∀ after, readString? (rest ++ after) =
            if OneLine value.toList then some (value.toList, after) else none := by
  refine ⟨Emission.commentTexts_module done, ?_, ?_⟩
  · intro declaration declared documentation documented
    constructor
    · intro line listed
      obtain ⟨after, written⟩ :=
        Emission.exists_writes_commentText done declared documented listed
      exact ⟨_, after, rfl, written,
        readComment?_iff (Fragment.slashes_isPrefix_commentText line) after⟩
    · simp only [oneLine_commentText]
      exact oneLine_docLines_iff documentation
  · intro head nested listed inGroup field placed isString value given unquoted
    refine ⟨Emission.exists_writes_member done listed isString given placed,
      Emission.exists_writes_parameter done listed isString given, oneLine_quote unquoted, ?_⟩
    have starts := toList_quote unquoted
    refine ⟨_, starts, fun after => ?_⟩
    have read := readString?_quote unquoted after
    rwa [starts, List.tail_cons] at read

/-- A record with characters that end lines of code where they are trimmed away, and with quotes in
its default value. -/
def leaflet : Record where
  type := ⟨"press.Leaflet"⟩
  documentation := "Fold\r\nTwice\u2028\n"
  fields := [{ name := "title", type := ⟨"string"⟩, defaultValue := some "the \"best\"" }]

theorem leaflet_contained : ∃ item,
    Emission.module? ⟨.initial, .record leaflet []⟩ = .ok item ∧
    Fragment.commentTexts item.fragments = ["Fold", "Twice"] ∧
    ¬ Overruns leaflet.documentation.toList ∧
    (∃ after, item.Writes "// Twice" after ∧
      readComment? ("// Twice".toList ++ '\n' :: after) = some ("// Twice".toList, '\n' :: after)) ∧
    (∃ after, item.Writes ("title: string = " ++ quote "the \"best\"") after) ∧
    ∃ rest, (quote "the \"best\"").toList = '"' :: rest ∧ ∀ after,
      readString? (rest ++ after) = some ("the \"best\"".toList, after) := by
  obtain ⟨item, done⟩ : ∃ item, Emission.module? ⟨.initial, .record leaflet []⟩ = .ok item :=
    ⟨_, rfl⟩
  obtain ⟨said, documented, defaulted⟩ := texts_contained_iff done
  obtain ⟨written, contained⟩ := documented (.record leaflet []) List.mem_cons_self
    leaflet.documentation List.mem_cons_self
  have lines : docLines leaflet.documentation = ["Fold", "Twice"] := by decide
  rw [lines] at written contained
  obtain ⟨comment, after, rfl, stands, read⟩ := written "Twice" (by decide)
  obtain ⟨member, -, -, rest, starts, value⟩ := defaulted leaflet [] List.mem_cons_self false _
    List.mem_cons_self rfl _ rfl (by decide)
  refine ⟨item, done, ?_, contained.mp (by decide), ⟨after, stands, read.mpr (by decide)⟩, member,
    rest, starts, fun after => ?_⟩
  · rw [said]
    decide
  · rw [value, if_pos (by decide)]

/-- A field with a line feed in its default value. -/
def flyerTitle : Field where
  name := "title"
  type := ⟨"string"⟩
  defaultValue := some "Two\nlines"

/-- A record with a carriage return in its documentation. -/
def flyer : Record where
  type := ⟨"press.Flyer"⟩
  documentation := "Hand out\rBefore noon"
  fields := [flyerTitle]

/-- The comment ends before the carriage return, so that the rest of the documentation is code, and
the literal does not end on the line on which it starts. -/
theorem flyer_breaks_out : ¬ Quoted "Two\nlines".toList ∧ ∃ item,
    Emission.module? ⟨.initial, .record flyer []⟩ = .ok item ∧
    (∃ after, item.Writes "// Hand out\rBefore noon" after ∧
      readComment? ("// Hand out\rBefore noon".toList ++ '\n' :: after) =
        some ("// Hand out".toList, "\rBefore noon".toList ++ '\n' :: after)) ∧
    (∃ after, item.Writes "title: string = \"Two\nlines\"" after) ∧
    (∃ ending ∈ ["", ","], ∃ after,
      item.Writes ("title: string = \"Two\nlines\"" ++ ending) after) ∧
    ∀ after, readString? ("Two\nlines\"".toList ++ after) = none := by
  have unquoted : ¬ Quoted "Two\nlines".toList := by decide
  obtain ⟨item, done⟩ : ∃ item, Emission.module? ⟨.initial, .record flyer []⟩ = .ok item := ⟨_, rfl⟩
  have isRecord : .record flyer [] ∈ (Declaration.record flyer []).flatten := List.mem_cons_self
  have comment : Fragment.commentText "Hand out\rBefore noon" = "// Hand out\rBefore noon" := by
    decide
  have literal : flyerTitle.stringLead false ++ quote "Two\nlines" =
      "title: string = \"Two\nlines\"" := by
    decide
  have cut (after : List Char) : readComment? ("// Hand out\rBefore noon".toList ++ '\n' :: after) =
      some ("// Hand out".toList, "\rBefore noon".toList ++ '\n' :: after) := by
    simp [readComment?, isLineTerminator]
  have documented : ∃ after,
      item.Writes (Fragment.commentText "Hand out\rBefore noon") after :=
    Emission.exists_writes_commentText done isRecord List.mem_cons_self (by decide)
  have member := Emission.exists_writes_member done isRecord (Eq.refl flyerTitle.type) rfl
    List.mem_cons_self
  have parameter := Emission.exists_writes_parameter done isRecord (Eq.refl flyerTitle.type) rfl
    List.mem_cons_self
  have read (after : List Char) : readString? ("Two\nlines\"".toList ++ after) = none :=
    (readString?_quote unquoted after).trans (if_neg (by decide))
  rw [comment] at documented
  rw [literal] at member parameter
  obtain ⟨after, documented⟩ := documented
  exact ⟨unquoted, item, done, ⟨after, documented, cut after⟩, member, parameter, read⟩

end Typescribe
