import Typescribe.Proofs.Generation.ClassMembers

/-!
# Constructors of records' classes

The constructor stands at the end of a record's class. Read from the text of the class, it has one
parameter for each required field and, if there are other fields, the callback that can set them.
A record without fields has none.
-/

namespace Typescribe

open TypeScript Text

namespace Text

/-- Whether a constructor starts at a line. -/
def opensConstructor (line : List Char) : Bool :=
  "  constructor(".toList.isPrefixOf line

/-- The lines from the last one on at which a constructor starts. Properties stand before the
constructor, so that whatever they are called the last such line is the constructor's. -/
def fromConstructor? : List (List Char) → Option (List (List Char))
  | [] => none
  | line :: rest =>
    (fromConstructor? rest).or (if opensConstructor line then some (line :: rest) else none)

/-- The text of a class from its constructor on, if it has one. -/
def constructorText? (text : String) : Option String :=
  (fromConstructor? (text.toList.splitOn '\n')).map fun lines =>
    String.ofList (['\n'].intercalate lines)

/-- Parameters between the brackets of a constructor, with one comma between each and the next:
each on a line of its own, or all on one line. -/
def bracketed (ownLines : Bool) (params : List String) : String :=
  if ownLines then "\n    " ++ String.intercalate ",\n    " params ++ "\n  "
  else String.intercalate ", " params

/-- A constructor from its keyword on, with the given parameters and statements. -/
def constructorText (ownLines : Bool) (params statements : List String) : String :=
  String.join (["  constructor(", bracketed ownLines params, ") \x7b\n"] ++
    statements.map (fun statement => "    " ++ statement ++ "\n") ++ ["  \x7d\n"])

end Text

namespace Field

/-- The parameter for a field: its member's name, its type, and its default value if it has one. -/
def parameter (field : Field) : String :=
  field.memberName ++ ": " ++ field.type.called ++
    (field.defaultValue.map fun value =>
      " = " ++ if field.type = ⟨"string"⟩ then quote value else value).getD ""

/-- The statement that gives the member of a field the value of its parameter. -/
def assignment (field : Field) : String :=
  "this." ++ field.memberName ++ " = " ++ field.memberName

end Field

namespace Record

/-- The declared fields that are required. -/
def positional (record : Record) : List Field :=
  record.fields.filter fun field => field.cardinality = .required

/-- Some field is not positional: a declared one that is not required, or any field of a group. -/
def HasOthers (record : Record) : Prop :=
  (∃ field ∈ record.fields, field.cardinality ≠ .required) ∨
    ∃ group ∈ record.oneOfs, group.fields ≠ []

instance (record : Record) : Decidable record.HasOthers :=
  inferInstanceAs (Decidable (_ ∨ _))

/-- The parameter for the callback that sets the fields that are not positional. -/
def configure (record : Record) : String :=
  String.join ["configure: ((o: ", record.type.called, ") => void) | undefined = undefined"]

/-- The parameters of a record's constructor. -/
def parameters (record : Record) : List String :=
  record.positional.map Field.parameter ++ if record.HasOthers then [record.configure] else []

/-- The statements of a record's constructor. -/
def statements (record : Record) : List String :=
  record.positional.map Field.assignment ++
    if record.HasOthers then ["configure?.call(this, this)"] else []

/-- The constructor of a record with fields, with the given parameters for the positional ones. -/
def constructorOf (record : Record) (className : String) (params : List Param) : Constructor where
  params := params
  configured := if record.HasOthers then some className else none
  multiline := true

/-- No text that the class of a record is made from has a line feed, documentation apart. -/
structure OneLineTexts (record : Record) : Prop where
  type : '\n' ∉ record.type.text.toList
  groups : ∀ group ∈ record.oneOfs, '\n' ∉ group.name.toList
  names : ∀ field ∈ record.allFields, '\n' ∉ field.memberName.toList
  types : ∀ field ∈ record.allFields, '\n' ∉ field.type.text.toList
  defaults : ∀ field ∈ record.allFields, ∀ value ∈ field.defaultValue, '\n' ∉ value.toList

end Record

namespace Text

theorem fromConstructor?_eq_none {lines : List (List Char)}
    (noneOpens : ∀ line ∈ lines, opensConstructor line = false) : fromConstructor? lines = none := by
  induction lines with
  | nil => rfl
  | cons line rest ih =>
    obtain ⟨head, tail⟩ := List.forall_mem_cons.mp noneOpens
    rw [fromConstructor?, ih tail, head]
    rfl

/-- The constructor is found behind whatever lines. -/
theorem fromConstructor?_append (before : List (List Char)) {found after : List (List Char)}
    (starts : fromConstructor? after = some found) :
    fromConstructor? (before ++ after) = some found := by
  induction before with
  | nil => exact starts
  | cons line rest ih =>
    rw [List.cons_append, fromConstructor?, ih]
    rfl

/-- No line inside the properties of a class starts a constructor. -/
theorem opensConstructor_eq_false {line : List Char} (inside : endsProperties line = false) :
    opensConstructor line = false :=
  (Bool.or_eq_false_iff.mp inside).1

/-- A constructor is read from the last line that starts one to the end of the class. -/
theorem constructorText?_eq_some {opening rest : List Char} {code : List (List Char)}
    (oneLine : '\n' ∉ opening) (opens : opensConstructor opening = true)
    (presents : Presents rest code) (front : List Char) :
    constructorText? (String.ofList (front ++ '\n' :: (opening ++ '\n' :: (rest ++ ['}', '\n'])))) =
      some (String.ofList (opening ++ '\n' :: (rest ++ ['}', '\n']))) := by
  obtain ⟨lines, rfl, inside, -⟩ := presents
  have split : (opening ++ '\n' :: (lines.flatMap (· ++ ['\n']) ++ ['}', '\n'])).splitOn '\n' =
      opening :: (lines ++ [['}'], []]) := by
    rw [List.splitOn_append_cons_self, List.splitOn_eq_singleton oneLine,
      splitOn_lines fun line member => (inside line member).1]
    rfl
  have later : fromConstructor? (lines ++ [['}'], []]) = none := by
    apply fromConstructor?_eq_none
    rw [List.forall_mem_append]
    exact ⟨fun line member => opensConstructor_eq_false (inside line member).2, by decide⟩
  have found : fromConstructor? (opening :: (lines ++ [['}'], []])) =
      some (opening :: (lines ++ [['}'], []])) := by
    rw [fromConstructor?, later, opens]
    rfl
  rw [constructorText?, String.toList_ofList, List.splitOn_append_cons_self, split,
    fromConstructor?_append _ found, Option.map_some, ← split, List.intercalate_splitOn]

/-- A comment starts no constructor. -/
theorem opensConstructor_eq_false_of_isComment {line : List Char} (comment : isComment line = true) :
    opensConstructor line = false := by
  rw [← Bool.not_eq_true, opensConstructor, List.isPrefixOf_iff_prefix]
  rintro ⟨rest, rfl⟩
  have blank : isBlank ' ' = true ∧ isBlank 'c' = false := by decide
  simp [isComment, trimStart, blank] at comment

/-- A class in which no line starts a constructor has none. -/
theorem constructorText?_eq_none {lines : List (List Char)}
    (noneOpens : ∀ line ∈ lines, '\n' ∉ line ∧ opensConstructor line = false) :
    constructorText? (String.ofList (lines.flatMap (· ++ ['\n']))) = none := by
  have split : (lines.flatMap (· ++ ['\n'])).splitOn '\n' = lines ++ [[]] := by
    have found := splitOn_lines (fun line member => (noneOpens line member).1) []
    rwa [List.append_nil] at found
  have none : fromConstructor? (lines ++ [[]]) = none := by
    apply fromConstructor?_eq_none
    rw [List.forall_mem_append]
    exact ⟨fun line member => (noneOpens line member).2, by decide⟩
  rw [constructorText?, String.toList_ofList, split, none]
  rfl

theorem margin_two : Indent.standard.margin 2 = [' ', ' ', ' ', ' '] := by
  decide

/-- Lines that are indented twice stand among the properties of a class as well. -/
theorem Presents.lines {texts : List String} (oneLine : ∀ text ∈ texts, '\n' ∉ text.toList) :
    ∃ code, Presents (Fragment.charsAll .standard 2 (texts.map .line)) code := by
  have each : ∀ text ∈ texts, Presents (Fragment.chars .standard 2 (.line text))
      ([Indent.standard.margin 2 ++ text.toList].filter isCode) := by
    intro text listed
    rw [Fragment.chars, Indent.lineChars, margin_two]
    exact .line (by simp [oneLine text listed]) (Presents.endsProperties_margin (by simp))
  rw [Fragment.charsAll_eq_flatMap, List.flatMap_map]
  exact ⟨_, .flatMap each⟩

end Text

namespace TypeScript.Constructor

/-- The statements of a constructor as texts. -/
def statementTexts (method : Constructor) : List String :=
  (method.params.map fun param => "this." ++ param.name ++ " = " ++ param.name) ++
    if method.configured.isSome then ["configure?.call(this, this)"] else []

theorem body_eq (method : Constructor) : method.body = method.statementTexts.map .line := by
  rw [body, statementTexts, List.map_append, List.map_map]
  split <;> rfl

/-- Parameters on lines of their own are separated by commas. -/
theorem charsAll_paramLines {params : List Param} (nonempty : params ≠ []) :
    Fragment.charsAll .standard 2 (paramLines params) =
      ("    " ++ String.intercalate ",\n    " (params.map Param.render) ++ "\n").toList := by
  induction params with
  | nil => exact absurd rfl nonempty
  | cons first rest ih =>
    cases rest with
    | nil => simp [paramLines, Fragment.chars, Indent.lineChars, margin_two]
    | cons second later =>
      rw [paramLines, Fragment.charsAll_cons, ih (List.cons_ne_nil second later)]
      · simp [Fragment.chars, Indent.lineChars, margin_two]
      · simp

theorem charsAll_body (method : Constructor) :
    Fragment.charsAll .standard 2 method.body =
      (String.join (method.statementTexts.map fun text => "    " ++ text ++ "\n")).toList := by
  rw [body_eq, Fragment.charsAll_eq_flatMap, List.flatMap_map, String.toList_join, List.flatMap_map]
  congr 1
  funext text
  simp [Fragment.chars, Indent.lineChars, margin_two]

/-- A constructor is laid out as its parameters and statements say, in both layouts. -/
theorem charsAll_fragments (method : Constructor) :
    Fragment.charsAll .standard 1 method.fragments =
      (constructorText (method.multiline && !method.params.isEmpty)
        (method.signature.map Param.render) method.statementTexts).toList := by
  rw [fragments, constructorText, bracketed]
  split
  next ownLines =>
    have nonempty : method.signature ≠ [] := by
      rw [Bool.and_eq_true, Bool.not_eq_true', List.isEmpty_eq_false_iff] at ownLines
      exact List.append_ne_nil_of_left_ne_nil ownLines.2 _
    simp [Fragment.braced, Fragment.chars, Indent.lineChars, Presents.margin_one, charsAll_body,
      charsAll_paramLines nonempty]
  next =>
    simp [Fragment.braced, Fragment.chars, Indent.lineChars, Presents.margin_one, charsAll_body,
      Param.renderAll]

/-- Every parameter has a line of its own, with or without a comma behind it. -/
theorem exists_paramLines_eq (params : List Param) :
    ∃ texts : List String, paramLines params = texts.map .line ∧
      (∀ param ∈ params, ∃ ending ∈ ["", ","], param.render ++ ending ∈ texts) ∧
      ∀ text ∈ texts, ∃ param ∈ params, ∃ ending ∈ ["", ","], text = param.render ++ ending := by
  induction params with
  | nil =>
    exact ⟨[], rfl, fun _ listed => absurd listed List.not_mem_nil,
      fun _ listed => absurd listed List.not_mem_nil⟩
  | cons first rest ih =>
    obtain ⟨texts, laidOut, each, only⟩ := ih
    cases rest with
    | nil => exact ⟨[first.render], rfl, by simp, by simp⟩
    | cons second later =>
      refine ⟨(first.render ++ ",") :: texts, ?_, ?_, ?_⟩
      · rw [paramLines, laidOut]
        · rfl
        · simp
      · refine List.forall_mem_cons.mpr ⟨⟨",", by simp, List.mem_cons_self⟩, fun param listed => ?_⟩
        obtain ⟨ending, allowed, inside⟩ := each param listed
        exact ⟨ending, allowed, List.mem_cons_of_mem _ inside⟩
      · refine List.forall_mem_cons.mpr
          ⟨⟨first, List.mem_cons_self, ",", by simp, rfl⟩, fun text listed => ?_⟩
        obtain ⟨param, isParam, written⟩ := only text listed
        exact ⟨param, List.mem_cons_of_mem _ isParam, written⟩

theorem exists_paramLines {params : List Param}
    (oneLine : ∀ param ∈ params, '\n' ∉ param.render.toList) :
    ∃ texts : List String, paramLines params = texts.map .line ∧
      ∀ text ∈ texts, '\n' ∉ text.toList := by
  obtain ⟨texts, laidOut, -, only⟩ := exists_paramLines_eq params
  refine ⟨texts, laidOut, fun text listed => ?_⟩
  obtain ⟨param, isParam, ending, allowed, rfl⟩ := only text listed
  have closing : '\n' ∉ ending.toList := by
    simp only [List.mem_cons, List.not_mem_nil, or_false] at allowed
    rcases allowed with rfl | rfl <;> decide
  simp [oneLine param isParam, closing]

theorem lineFeed_not_mem_statementTexts {method : Constructor}
    (oneLine : ∀ param ∈ method.signature, '\n' ∉ param.render.toList) :
    ∀ text ∈ method.statementTexts, '\n' ∉ text.toList := by
  rw [statementTexts, List.forall_mem_append, List.forall_mem_map]
  constructor
  · intro param listed
    have name : '\n' ∉ param.name.toList := by
      intro lineFeed
      refine oneLine param (List.mem_append_left _ listed) ?_
      rw [Param.render]
      split <;> simp [lineFeed]
    simp [name]
  · split
    · decide
    · exact fun _ listed => absurd listed List.not_mem_nil

/-- A constructor starts with one line, and no line behind it starts another. -/
theorem exists_opening {method : Constructor}
    (oneLine : ∀ param ∈ method.signature, '\n' ∉ param.render.toList) :
    ∃ opening rest code, Fragment.charsAll .standard 1 method.fragments = opening ++ '\n' :: rest ∧
      '\n' ∉ opening ∧ opensConstructor opening = true ∧ Presents rest code := by
  obtain ⟨statements, presentsBody⟩ :=
    Presents.lines (lineFeed_not_mem_statementTexts oneLine)
  rw [← body_eq] at presentsBody
  have closing : Presents "  \x7d\n".toList _ :=
    .line (by decide : '\n' ∉ "  \x7d".toList) (by decide)
  have rest := presentsBody.append closing
  rw [fragments]
  -- The opening is the bracket alone, or the bracket with all parameters behind it.
  split
  next =>
    obtain ⟨texts, laidOut, plain⟩ := exists_paramLines oneLine
    obtain ⟨params, presentsParams⟩ := Presents.lines plain
    rw [← laidOut] at presentsParams
    have bracket : Presents "  ) \x7b\n".toList _ :=
      .line (by decide : '\n' ∉ "  ) \x7b".toList) (by decide)
    refine ⟨"  constructor(".toList, _, _, ?_, by decide, by decide,
      (presentsParams.append bracket).append rest⟩
    simp [Fragment.braced, Fragment.chars, Indent.lineChars, Presents.margin_one]
  next =>
    have params : '\n' ∉ (Param.renderAll method.signature).toList := by
      rw [Param.renderAll, String.toList_intercalate]
      refine not_mem_intercalate (by decide) ?_
      simpa using oneLine
    refine ⟨"  constructor(".toList ++ (Param.renderAll method.signature).toList ++ ") \x7b".toList,
      _, _, ?_, ?_, ?_, rest⟩
    · simp [Fragment.braced, Fragment.chars, Indent.lineChars, Presents.margin_one]
    · simp [params]
    · rw [opensConstructor, List.isPrefixOf_iff_prefix, List.append_assoc]
      exact List.prefix_append _ _

end TypeScript.Constructor

namespace Record

variable {record : Record}

/-- The parameter of a field is written as its name, type and default say. -/
theorem param_eq_ok {field : Field} {param : Param} (done : Record.param field = .ok param) :
    param.name = field.memberName ∧ param.render = field.parameter := by
  obtain ⟨type, typed, rest⟩ := bind_eq_ok.mp done
  obtain rfl := pure_eq_ok.mp rest
  obtain rfl := fieldType_eq typed
  refine ⟨rfl, ?_⟩
  rw [Param.render, Field.parameter]
  dsimp only
  rw [Field.literal?]
  cases field.defaultValue with
  | none => simp
  | some value => simp [Scalar.ofTypeName?_eq_string_iff, String.append_assoc]

/-- There are fewer required fields than fields exactly if some field is not positional. -/
theorem length_positional_lt_iff :
    record.positional.length < record.fieldCount ↔ record.HasOthers := by
  have declared : record.positional.length < record.fields.length ↔
      ∃ field ∈ record.fields, field.cardinality ≠ .required := by
    rw [positional, List.length_filter_lt_length_iff_exists]
    simp
  have grouped : 0 < (record.oneOfs.flatMap OneOf.fields).length ↔
      ∃ group ∈ record.oneOfs, group.fields ≠ [] := by
    rw [List.length_pos_iff, ne_eq, List.flatMap_eq_nil_iff]
    simp
  have bound : record.positional.length ≤ record.fields.length := List.length_filter_le _ _
  rw [HasOthers, ← declared, ← grouped, fieldCount, allFields, List.length_append]
  omega

/-- A record without fields has no constructor. Any other has one, with the parameters of the
required fields and, if there are other fields, the callback. -/
theorem constructor?_eq_ok {className : String} {method : Option Constructor}
    (done : record.constructor? className = .ok method) :
    record.allFields = [] ∧ method = none ∨
      record.allFields ≠ [] ∧ ∃ params, record.positional.mapM param = .ok params ∧
        method = some (record.constructorOf className params) := by
  have required : record.requiredFields = record.positional := rfl
  rw [constructor?] at done
  split at done
  next empty =>
    exact .inl ⟨List.length_eq_zero_iff.mp empty, (Except.ok.inj done).symm⟩
  next nonempty =>
    obtain ⟨params, written, rest⟩ := bind_eq_ok.mp done
    rw [required] at written
    refine .inr ⟨fun empty => nonempty (List.length_eq_zero_iff.mpr empty), params, written, ?_⟩
    rw [← pure_eq_ok.mp rest, ← (mapM_eq_ok.mp written).length_eq]
    simp only [length_positional_lt_iff, constructorOf]

/-- The constructor of a record is written with the record's parameters and statements. -/
theorem constructorOf_texts {params : List Param}
    (written : record.positional.mapM param = .ok params) :
    (record.constructorOf record.type.called params).signature.map Param.render =
        record.parameters ∧
      (record.constructorOf record.type.called params).statementTexts = record.statements ∧
      params.isEmpty = record.positional.isEmpty := by
  have renders := map_eq_of_mapM written fun field _ param done => (param_eq_ok done).2
  have assigns : params.map (fun param => "this." ++ param.name ++ " = " ++ param.name) =
      record.positional.map Field.assignment := by
    refine map_eq_of_mapM written fun field _ param done => ?_
    rw [(param_eq_ok done).1, Field.assignment]
  have callback : (Constructor.configureParam record.type.called).render = record.configure := by
    rw [← String.toList_inj]
    simp [Constructor.configureParam, Param.render, configure]
  refine ⟨?_, ?_, ?_⟩
  · rw [Constructor.signature, constructorOf, List.map_append, renders, parameters]
    split <;> simp [callback]
  · rw [Constructor.statementTexts, constructorOf, assigns, statements]
    split <;> simp
  · rw [← List.isEmpty_map (f := Param.render), renders, List.isEmpty_map]

/-- The parameters of a record have no line feed if its texts have none. -/
theorem OneLineTexts.lineFeed_not_mem_parameters (plain : record.OneLineTexts) :
    ∀ text ∈ record.parameters, '\n' ∉ text.toList := by
  rw [parameters, List.forall_mem_append, List.forall_mem_map]
  constructor
  · intro field listed
    have declared : field ∈ record.allFields :=
      List.mem_append_left _ (List.mem_filter.mp listed).1
    have name := plain.names field declared
    have called := TypeName.lineFeed_not_mem_called (plain.types field declared)
    rw [Field.parameter]
    cases given : field.defaultValue with
    | none => simp [name, called]
    | some value =>
      have oneLine := plain.defaults field declared value given
      have literal : '\n' ∉ (if field.type = ⟨"string"⟩ then quote value else value).toList := by
        split
        · exact lineFeed_not_mem_quote oneLine
        · exact oneLine
      simp [name, called, literal]
  · have called := TypeName.lineFeed_not_mem_called plain.type
    split <;> simp [configure, called]

/-- Every field is a parameter that its member is assigned, or is left to the callback. -/
theorem parameter_or_configure {field : Field} (listed : field ∈ record.allFields) :
    field ∈ record.positional ∧ field.parameter ∈ record.parameters ∧
        field.assignment ∈ record.statements ∨
      record.configure ∈ record.parameters ∧ "configure?.call(this, this)" ∈ record.statements := by
  have left (others : record.HasOthers) : record.configure ∈ record.parameters ∧
      "configure?.call(this, this)" ∈ record.statements := by
    simp [parameters, statements, others]
  rcases List.mem_append.mp listed with declared | grouped
  · by_cases required : field.cardinality = .required
    · have positional : field ∈ record.positional :=
        List.mem_filter.mpr ⟨declared, decide_eq_true required⟩
      exact .inl ⟨positional, List.mem_append_left _ (List.mem_map_of_mem positional),
        List.mem_append_left _ (List.mem_map_of_mem positional)⟩
    · exact .inr (left (.inl ⟨field, declared, required⟩))
  · obtain ⟨group, isGroup, inside⟩ := List.mem_flatMap.mp grouped
    exact .inr (left (.inr ⟨group, isGroup, List.ne_nil_of_mem inside⟩))

end Record

namespace KnownTypes

variable {known : KnownTypes} {record : Record} {item : TypeScript.Class}

/-- The class of a record is written with the constructor of the record. -/
theorem constructor?_of_recordClass (done : known.recordClass record = .ok item) :
    ∃ method, record.constructor? record.type.called = .ok method := by
  obtain ⟨name, named, rest⟩ := bind_eq_ok.mp done
  obtain ⟨members, -, rest⟩ := bind_eq_ok.mp rest
  obtain ⟨method, written, -⟩ := bind_eq_ok.mp rest
  rw [TypeName.called_eq named]
  exact ⟨method, written⟩

/-- The class of a record without fields has no constructor. -/
theorem constructorText?_of_empty (plain : record.OneLineTexts) (empty : record.allFields = [])
    (done : known.recordClass record = .ok item) :
    constructorText? (Page.addAll {} item.fragments).text = none := by
  obtain ⟨above, comments, commented⟩ := Fragment.exists_commentLines record.documentation
  have aboveClosed : ∀ line ∈ above, '\n' ∉ line ∧ opensConstructor line = false :=
    fun line listed => ⟨(commented line listed).1,
      opensConstructor_eq_false_of_isComment (commented line listed).2⟩
  have header {ending : String} (oneLine : '\n' ∉ ending.toList) :
      '\n' ∉ (record.header ++ ending).toList ∧
        opensConstructor (record.header ++ ending).toList = false := by
    refine ⟨(Record.header_isCode plain.type oneLine).1, ?_⟩
    rw [← Bool.not_eq_true, opensConstructor, List.isPrefixOf_iff_prefix, Record.header,
      Class.header]
    dsimp only
    split <;> simp
  rw [Page.text_addAll, fill_record done, Record.template, Template.fill_cons, Piece.fill, comments]
  split
  next =>
    have closed : ∀ line ∈ above ++ [(record.header ++ " \x7b\x7d").toList],
        '\n' ∉ line ∧ opensConstructor line = false := by
      rw [List.forall_mem_append, List.forall_mem_singleton]
      exact ⟨aboveClosed, header (by decide)⟩
    simpa [Piece.fill, Indent.lineChars, Indent.margin] using constructorText?_eq_none closed
  next =>
    have noFields : ∀ field ∈ record.allFields, field.PlainTexts := by simp [empty]
    obtain ⟨lines, members, inside, -⟩ := Record.presents_members noFields plain.groups known
    have noConstructor : record.constructorChars = [] := by
      have none : record.fieldCount = 0 := List.length_eq_zero_iff.mpr empty
      rw [Record.constructorChars, Record.constructor?, if_pos none]
    have closed : ∀ line ∈ above ++ (record.header ++ " \x7b").toList :: (lines ++ [['}']]),
        '\n' ∉ line ∧ opensConstructor line = false := by
      rw [List.forall_mem_append, List.forall_mem_cons, List.forall_mem_append]
      exact ⟨aboveClosed, header (by decide), fun line listed =>
        ⟨(inside line listed).1, opensConstructor_eq_false (inside line listed).2⟩, by decide⟩
    simpa [Piece.fill, Indent.lineChars, Indent.margin, members, noConstructor] using
      constructorText?_eq_none closed

/-- The class of a record with fields ends with the constructor. -/
theorem constructorText?_of_nonempty (plain : record.OneLineTexts) (nonempty : record.allFields ≠ [])
    (done : known.recordClass record = .ok item) :
    constructorText? (Page.addAll {} item.fragments).text =
      some (constructorText (!record.positional.isEmpty) record.parameters record.statements ++
        "\x7d\n") := by
  obtain ⟨method, written⟩ := constructor?_of_recordClass done
  obtain ⟨empty, -⟩ | ⟨-, params, paramsWritten, rfl⟩ := Record.constructor?_eq_ok written
  · exact absurd empty nonempty
  obtain ⟨renders, statements, noParams⟩ := Record.constructorOf_texts paramsWritten
  have laidOut : Fragment.charsAll .standard 1
      (record.constructorOf record.type.called params).fragments =
        (constructorText (!record.positional.isEmpty) record.parameters record.statements).toList := by
    rw [Constructor.charsAll_fragments, renders, statements, ← noParams]
    rfl
  have oneLine : ∀ param ∈ (record.constructorOf record.type.called params).signature,
      '\n' ∉ param.render.toList := by
    have texts := plain.lineFeed_not_mem_parameters
    rwa [← renders, List.forall_mem_map] at texts
  obtain ⟨opening, rest, code, split, openingLine, opens, presents⟩ :=
    Constructor.exists_opening oneLine
  have notEmpty : ¬ (record.fields = [] ∧ record.oneOfs = []) := by
    rintro ⟨noFields, noGroups⟩
    exact nonempty (by simp [Record.allFields, noFields, noGroups])
  have ending : constructorText (!record.positional.isEmpty) record.parameters record.statements ++
      "\x7d\n" = String.ofList (opening ++ '\n' :: (rest ++ ['}', '\n'])) := by
    rw [← String.toList_inj, String.toList_append, ← laidOut, split]
    simp
  have chars : record.constructorChars = '\n' :: (opening ++ '\n' :: rest) := by
    rw [Record.constructorChars, written]
    exact congrArg _ split
  -- Nothing is said about the properties: a constructor is read from its last opening.
  have text : Template.fill known.slotText record.template =
      (Fragment.charsAll .standard 0 (Fragment.comments (docLines record.documentation)) ++
        (Indent.standard.lineChars 0 (record.header ++ " \x7b") ++
          Template.fill known.slotText record.memberTemplate)) ++
        '\n' :: (opening ++ '\n' :: (rest ++ ['}', '\n'])) := by
    rw [Record.template, if_neg notEmpty, chars]
    simp [Piece.fill, Indent.lineChars, Indent.margin]
  rw [Page.text_addAll, fill_record done, text, ending]
  exact constructorText?_eq_some openingLine opens presents _

/-- The class of a record has no constructor exactly if the record has no field. Any other has one
parameter for each required field and, if there are other fields, the callback that can set them;
its statements assign the parameters and then call the callback. So every field can be set. -/
theorem recordClass_constructor (plain : record.OneLineTexts)
    (done : known.recordClass record = .ok item) :
    (constructorText? (Page.addAll {} item.fragments).text = none ↔ record.allFields = []) ∧
      (record.allFields ≠ [] → constructorText? (Page.addAll {} item.fragments).text =
        some (constructorText (!record.positional.isEmpty) record.parameters record.statements ++
          "\x7d\n")) ∧
      record.type.className = .ok record.type.called ∧
      (∀ field ∈ record.allFields, field.type.className = .ok field.type.called) ∧
      ∀ field ∈ record.allFields,
        field ∈ record.positional ∧ field.parameter ∈ record.parameters ∧
            field.assignment ∈ record.statements ∨
          record.configure ∈ record.parameters ∧
            "configure?.call(this, this)" ∈ record.statements := by
  have nonempty := fun fields => constructorText?_of_nonempty plain fields done
  refine ⟨⟨?_, fun empty => constructorText?_of_empty plain empty done⟩, nonempty, ?_, ?_,
    fun _ listed => Record.parameter_or_configure listed⟩
  · intro none
    by_contra fields
    rw [nonempty fields] at none
    cases none
  · obtain ⟨name, named, -⟩ := bind_eq_ok.mp done
    rw [TypeName.called_eq named, named]
  · intro field listed
    obtain ⟨name, named⟩ := ((exists_recordClass_iff.mp ⟨item, done⟩).2 field listed).1
    rw [TypeName.called_eq named, named]

theorem berth_constructor : ∃ item, harborTypes.recordClass berth = .ok item ∧
    constructorText? (Page.addAll {} item.fragments).text =
      some (constructorText true
        ["code: string = \"A1\"", "pilot: Pilot",
          "configure: ((o: Berth) => void) | undefined = undefined"]
        ["this.code = code", "this.pilot = pilot", "configure?.call(this, this)"] ++ "\x7d\n") := by
  have plain : berth.OneLineTexts := ⟨by decide, by decide, by decide, by decide, by decide⟩
  have params : berth.parameters = ["code: string = \"A1\"", "pilot: Pilot",
      "configure: ((o: Berth) => void) | undefined = undefined"] := by decide +kernel
  have statements : berth.statements =
      ["this.code = code", "this.pilot = pilot", "configure?.call(this, this)"] := by decide
  have succeeds : (harborTypes.recordClass berth).isOk = true := by decide
  cases done : harborTypes.recordClass berth with
  | error reason =>
    rw [done] at succeeds
    cases succeeds
  | ok item =>
    refine ⟨item, rfl, ?_⟩
    rw [(recordClass_constructor plain done).2.1 (by decide), params, statements]
    rfl

end KnownTypes

end Typescribe
