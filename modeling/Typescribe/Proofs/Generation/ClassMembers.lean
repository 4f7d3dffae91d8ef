import Typescribe.Proofs.Generation.Patching
import Typescribe.Proofs.Generation.TypeTemplate
import Typescribe.Proofs.Text.Casing
import Typescribe.Proofs.Text.CodeLines

/-!
# Members of a record's class

The properties of a class stand between its head and its constructor. Read back from the text of a
record's class, with comments and blank lines left out, they are one entry for each field, in
order. The fields whose entries start with a token are those whose types are recorded as waited
for.
-/

namespace Typescribe

open TypeScript Text

namespace Text

/-- Whether a line holds more than blanks and is no comment. -/
def isCode (line : List Char) : Bool :=
  !isComment line && !line.all isBlank

/-- Whether a character can stand in an identifier. -/
def isIdentifierChar (c : Char) : Bool :=
  c.isAlphanum || c == '_' || c == '$'

/-- Whether a text has the characters of an identifier, and at least one. -/
def isIdentifier (text : String) : Bool :=
  !text.toList.isEmpty && text.toList.all isIdentifierChar

/-- Whether the properties of a class end before a line, because its constructor starts there or
the class ends. -/
def endsProperties (line : List Char) : Bool :=
  "  constructor(".toList.isPrefixOf line || line == ['}']

/-- The code of a class between its head and its constructor, line by line. -/
def propertyLines (text : String) : List String :=
  let body := ((text.toList.splitOn '\n').dropWhile isComment).tail
  ((body.takeWhile fun line => !endsProperties line).filter isCode).map String.ofList

end Text

namespace Field

/-- Whether the member that holds the field can be unset. -/
def canBeUnset (inGroup : Bool) (field : Field) : Bool :=
  inGroup || field.cardinality == .optional

/-- What the member that holds the field starts out with. -/
def startValue? (inGroup : Bool) (field : Field) : Option String :=
  match field.defaultValue with
  | some value => some (if field.type = ⟨"string"⟩ then quote value else value)
  | none =>
    if field.canBeUnset inGroup then some "undefined"
    else if field.cardinality = .repeated then some "[]"
    else none

/-- The declaration of the member that holds the field. -/
def member (inGroup : Bool) (field : Field) : String :=
  field.memberName ++ (if field.canBeUnset inGroup then "?" else "") ++ ": " ++
    field.type.called ++ (if field.cardinality = .repeated then "[]" else "") ++
      ((field.startValue? inGroup).map (" = " ++ ·)).getD ""

end Field

/-- The lines that a field takes in a class: the declaration of its member, behind the association
of a known record or the token of an unknown type. -/
def KnownTypes.entry (known : KnownTypes) (inGroup : Bool) (field : Field) : List String :=
  if field.type.isScalar then
    ["  " ++ field.member inGroup]
  else
    match known.find? field.type with
    | some (.record _ _) =>
      ["  @Type(() => " ++ field.type.called ++ ")", "  " ++ field.member inGroup]
    | some _ => ["  " ++ field.member inGroup]
    | none =>
      ["  \x7b\x7bfieldDecorator:" ++ field.type.text ++ "\x7d\x7d" ++ field.member inGroup]

/-- The entries of a record's fields: of the declared fields, then of the fields of each group. -/
def KnownTypes.entries (known : KnownTypes) (record : Record) : List String :=
  record.fields.flatMap (known.entry false) ++
    record.oneOfs.flatMap fun group => group.fields.flatMap (known.entry true)

/-- The member that holds the field is called by an identifier, and no other text that its entry
is made from has a line feed. -/
structure Field.PlainTexts (field : Field) : Prop where
  name : isIdentifier field.memberName = true
  defaultValue : ∀ value ∈ field.defaultValue, '\n' ∉ value.toList
  type : '\n' ∉ field.type.text.toList

/-- The fields of a record have plain texts, its groups are called by identifiers, and its own name
has no line feed. -/
structure Record.PlainTexts (record : Record) : Prop where
  fields : ∀ field ∈ record.allFields, field.PlainTexts
  groups : ∀ group ∈ record.oneOfs, isIdentifier group.name = true
  type : '\n' ∉ record.type.text.toList

namespace Text

/-- A text is made of lines that all belong to the properties of a class, and the code among them
is given. -/
def Presents (text : List Char) (code : List (List Char)) : Prop :=
  ∃ lines : List (List Char), text = lines.flatMap (· ++ ['\n']) ∧
    (∀ line ∈ lines, '\n' ∉ line ∧ endsProperties line = false) ∧ lines.filter isCode = code

namespace Presents

variable {first second : List Char} {code later : List (List Char)}

theorem margin_one : Indent.standard.margin 1 = [' ', ' '] := by
  decide

/-- Only the constructor ends the properties before a line that is indented once. -/
theorem endsProperties_margin {text : List Char}
    (noConstructor : ¬ "constructor(".toList <+: text) :
    endsProperties (' ' :: ' ' :: text) = false := by
  rw [endsProperties, Bool.or_eq_false_iff, ← Bool.not_eq_true, List.isPrefixOf_iff_prefix]
  exact ⟨by simpa using noConstructor, by simp⟩

theorem nil : Presents [] [] :=
  ⟨[], rfl, fun _ member => absurd member List.not_mem_nil, rfl⟩

theorem append (left : Presents first code) (right : Presents second later) :
    Presents (first ++ second) (code ++ later) := by
  obtain ⟨lines, rfl, inside, rfl⟩ := left
  obtain ⟨others, rfl, othersInside, rfl⟩ := right
  exact ⟨lines ++ others, List.flatMap_append.symm,
    List.forall_mem_append.mpr ⟨inside, othersInside⟩, List.filter_append _ _⟩

theorem flatMap {α : Type} {items : List α} {text : α → List Char} {code : α → List (List Char)}
    (each : ∀ item ∈ items, Presents (text item) (code item)) :
    Presents (items.flatMap text) (items.flatMap code) := by
  induction items with
  | nil => exact nil
  | cons item rest ih =>
    obtain ⟨head, tail⟩ := List.forall_mem_cons.mp each
    exact head.append (ih tail)

/-- One line on its own. -/
theorem line {line : List Char} (oneLine : '\n' ∉ line) (inside : endsProperties line = false) :
    Presents (line ++ ['\n']) ([line].filter isCode) :=
  ⟨[line], (List.flatMap_singleton _ _).symm, List.forall_mem_singleton.mpr ⟨oneLine, inside⟩, rfl⟩

/-- Empty lines between texts add no code. -/
theorem intercalate {texts : List (List Char)} {codes : List (List (List Char))}
    (each : List.Forall₂ Presents texts codes) :
    Presents (['\n'].intercalate texts) codes.flatten := by
  have blank : Presents ['\n'] [] := line List.not_mem_nil (by decide)
  induction each with
  | nil => exact nil
  | cons head tail ih =>
    cases tail with
    | nil => simpa using head
    | cons next rest =>
      rw [List.intercalate_cons_cons]
      simpa using (head.append blank).append ih

/-- Comments add no code. -/
theorem comment {text : String} (oneLine : '\n' ∉ text.toList) :
    Presents (Indent.standard.lineChars 1 (Fragment.commentText text)) [] := by
  have noCode : isCode (' ' :: ' ' :: (Fragment.commentText text).toList) = false := by
    have isComment := Fragment.isComment_commentText .standard 1 text
    rw [margin_one, List.cons_append, List.cons_append, List.nil_append] at isComment
    rw [isCode, isComment]
    rfl
  have noConstructor : ¬ "constructor(".toList <+: (Fragment.commentText text).toList := by
    rw [Fragment.commentText]
    split <;> simp
  have presented := line (by simp [Fragment.lineFeed_not_mem_commentText oneLine])
    (endsProperties_margin noConstructor)
  simpa [noCode, Indent.lineChars, margin_one] using presented

theorem comments (documentation : String) :
    Presents (Fragment.charsAll .standard 1 (Fragment.comments (docLines documentation))) [] := by
  have each : ∀ line ∈ docLines documentation,
      Presents (Fragment.chars .standard 1 (.comment line)) [] := by
    intro line member
    rw [Fragment.chars]
    exact comment (lineFeed_not_mem_docLine member)
  have none : (docLines documentation).flatMap (fun _ => ([] : List (List Char))) = [] := by simp
  rw [Fragment.comments, Fragment.charsAll_eq_flatMap, List.flatMap_map, ← none]
  exact .flatMap each

/-- A line of code that is indented once. -/
theorem indented {text : List Char} {c : Char} (starts : text.head? = some c)
    (oneLine : '\n' ∉ text) (notBlank : isBlank c = false) (noSlash : c ≠ '/')
    (noConstructor : ¬ "constructor(".toList <+: text) :
    Presents (' ' :: ' ' :: (text ++ ['\n'])) [' ' :: ' ' :: text] := by
  obtain ⟨rest, rfl⟩ := List.head?_eq_some_iff.mp starts
  have blank : isBlank ' ' = true := by decide
  have noComment : isComment (' ' :: ' ' :: c :: rest) = false := by
    rw [isComment, ← Bool.not_eq_true, List.isPrefixOf_iff_prefix]
    simp [trimStart, blank, notBlank, Ne.symm noSlash]
  have isCode : isCode (' ' :: ' ' :: c :: rest) = true := by
    simp [Text.isCode, noComment, notBlank]
  have presented := line (by simpa using oneLine) (endsProperties_margin noConstructor)
  simpa [isCode] using presented

end Presents

theorem isBlank_eq_false_of_isIdentifierChar {c : Char} (allowed : isIdentifierChar c = true) :
    isBlank c = false := by
  have code : 36 ≤ c.toNat ∧ c.toNat ≤ 122 := by
    rw [isIdentifierChar, Bool.or_eq_true, Bool.or_eq_true, beq_iff_eq, beq_iff_eq] at allowed
    rcases allowed with (alphanumeric | rfl) | rfl
    · have range := toNat_of_isAlphanum alphanumeric
      omega
    · decide
    · decide
  simp only [isBlank, whiteSpaceSet, CharSet.contains, CharRun.contains, List.any_cons,
    List.any_nil, Bool.or_false, Bool.or_eq_false_iff, Bool.and_eq_false_imp, Bool.and_eq_true,
    decide_eq_true_eq, beq_eq_false_iff_ne, ne_eq, and_imp]
  omega

theorem lineFeed_not_mem_of_isIdentifier {text : String} (allowed : isIdentifier text = true) :
    '\n' ∉ text.toList := by
  rw [isIdentifier, Bool.and_eq_true, List.all_eq_true] at allowed
  exact fun lineFeed => absurd (allowed.2 _ lineFeed) (by decide)

theorem lineFeed_not_mem_quote {text : String} (oneLine : '\n' ∉ text.toList) :
    '\n' ∉ (quote text).toList := by
  have escaped : '\n' ∉ text.toList.flatMap escapeChar := by
    rw [List.mem_flatMap]
    rintro ⟨c, member, inside⟩
    rw [escapeChar] at inside
    split at inside
    · exact absurd inside (by decide)
    · split at inside
      · exact absurd inside (by decide)
      · exact oneLine (List.mem_singleton.mp inside ▸ member)
  rw [quote, String.toList_ofList, quoteChars]
  split
  · exact oneLine
  · simpa using escaped

end Text

theorem TypeName.lineFeed_not_mem_called {type : TypeName} (oneLine : '\n' ∉ type.text.toList) :
    '\n' ∉ type.called.toList := by
  rw [called]
  cases named : type.className with
  | ok name => exact fun lineFeed => (mem_className named lineFeed).elim oneLine (by decide)
  | error reason => exact List.not_mem_nil

/-- The scalar string is called by its name. -/
theorem Scalar.ofTypeName?_eq_string_iff {type : TypeName} :
    ofTypeName? type = some .string ↔ type = ⟨"string"⟩ := by
  constructor
  · intro found
    rw [ofTypeName?] at found
    split at found
    · have named := List.find?_some found
      obtain ⟨text⟩ := type
      exact congrArg TypeName.mk (beq_iff_eq.mp named).symm
    · cases found
  · rintro rfl
    decide

namespace Field

variable {field : Field} {inGroup : Bool}

theorem initializer?_eq :
    field.initializer? (field.canBeUnset inGroup) = field.startValue? inGroup := by
  rw [initializer?, literal?, startValue?]
  cases field.defaultValue with
  | none => simp [isRepeated]
  | some value => simp [Scalar.ofTypeName?_eq_string_iff]

/-- A property is declared as the member that holds its field. -/
theorem declaration_bareProperty :
    (field.bareProperty inGroup).declaration = field.member inGroup := by
  have starts : (field.bareProperty inGroup).initializer = field.startValue? inGroup :=
    initializer?_eq
  have typed : (field.bareProperty inGroup).type =
      field.type.called ++ if field.cardinality = .repeated then "[]" else "" := by
    simp only [bareProperty, isRepeated, beq_iff_eq, TypeName.listOf]
    split
    · rfl
    · rw [String.append_empty]
  rw [Property.declaration, starts, typed, member]
  cases field.startValue? inGroup with
  | none => simp [bareProperty, canBeUnset, String.append_assoc]
  | some value => simp [bareProperty, canBeUnset, String.append_assoc]

/-- Behind the name of a member stands a question mark or a colon. -/
theorem member_eq_append (field : Field) (inGroup : Bool) :
    ∃ mark rest, (mark = '?' ∨ mark = ':') ∧
      (field.member inGroup).toList = field.memberName.toList ++ mark :: rest := by
  cases unset : field.canBeUnset inGroup with
  | true => exact ⟨'?', _, .inl rfl, by simp [member, unset]; rfl⟩
  | false => exact ⟨':', _, .inr rfl, by simp [member, unset]; rfl⟩

namespace PlainTexts

variable (plain : field.PlainTexts)
include plain

theorem isIdentifierChar_memberName :
    field.memberName.toList ≠ [] ∧ ∀ c ∈ field.memberName.toList, isIdentifierChar c = true := by
  have name := plain.name
  rw [isIdentifier, Bool.and_eq_true, List.all_eq_true] at name
  exact ⟨by simpa using name.1, name.2⟩

/-- No member can be taken for a constructor, whatever its name. -/
theorem constructor_not_isPrefix : ¬ "constructor(".toList <+: (field.member inGroup).toList := by
  rintro ⟨later, starts⟩
  obtain ⟨mark, rest, isMark, split⟩ := field.member_eq_append inGroup
  have foreign : isIdentifierChar mark = false := by
    rcases isMark with rfl | rfl <;> decide
  -- Both sides are cut where the identifier at the start ends.
  have behind : '(' :: later = mark :: rest := by
    have cut := congrArg (List.dropWhile isIdentifierChar) (starts.trans split)
    rw [List.dropWhile_append_of_pos plain.isIdentifierChar_memberName.2,
      List.dropWhile_cons_of_neg (by simp [foreign])] at cut
    exact cut
  rcases isMark with rfl | rfl
  · cases behind
  · cases behind

theorem lineFeed_not_mem_member : '\n' ∉ (field.member inGroup).toList := by
  have name := lineFeed_not_mem_of_isIdentifier plain.name
  have called := TypeName.lineFeed_not_mem_called plain.type
  have starts : '\n' ∉ (((field.startValue? inGroup).map (" = " ++ ·)).getD "").toList := by
    rw [startValue?]
    cases given : field.defaultValue with
    | none =>
      dsimp only
      split
      · decide
      · split <;> decide
    | some value =>
      have oneLine := plain.defaultValue value given
      have literal :
          '\n' ∉ (if field.type = ⟨"string"⟩ then quote value else value).toList := by
        split
        · exact lineFeed_not_mem_quote oneLine
        · exact oneLine
      simpa using literal
  have mark : '\n' ∉ (if field.canBeUnset inGroup then "?" else "").toList := by
    split <;> decide
  have brackets : '\n' ∉ (if field.cardinality = .repeated then "[]" else "").toList := by
    split <;> decide
  simp only [member, String.toList_append, List.mem_append, not_or]
  exact ⟨⟨⟨⟨⟨name, mark⟩, by decide⟩, called⟩, brackets⟩, starts⟩

/-- The declaration of a member is a line of code. -/
theorem presents_member :
    Presents (' ' :: ' ' :: ((field.member inGroup).toList ++ ['\n']))
      [("  " ++ field.member inGroup).toList] := by
  obtain ⟨nonempty, identifier⟩ := plain.isIdentifierChar_memberName
  obtain ⟨c, name, named⟩ := List.exists_cons_of_ne_nil nonempty
  obtain ⟨mark, rest, -, split⟩ := field.member_eq_append inGroup
  have isChar : isIdentifierChar c = true := identifier c (named ▸ List.mem_cons_self)
  rw [String.toList_append]
  refine .indented (by rw [split, named]; rfl) plain.lineFeed_not_mem_member
    (isBlank_eq_false_of_isIdentifierChar isChar) ?_ plain.constructor_not_isPrefix
  rintro rfl
  exact absurd isChar (by decide)

/-- An association is a line of code. -/
theorem presents_association :
    Presents (' ' :: ' ' :: ((association field.type.called).toList ++ ['\n']))
      [("  @Type(() => " ++ field.type.called ++ ")").toList] := by
  have called := TypeName.lineFeed_not_mem_called plain.type
  have text : ("  @Type(() => " ++ field.type.called ++ ")").toList =
      ' ' :: ' ' :: (association field.type.called).toList := by
    simp [association]
  rw [text]
  refine .indented (c := '@') ?_ ?_ (by decide) (by decide) ?_
  · simp [association]
  · simp [association, called]
  · simp [association]

/-- The declaration of a member behind a token is a line of code. -/
theorem presents_token :
    Presents (' ' :: ' ' :: (Placeholder.tokenChars field.type.text.toList ++
        ((field.member inGroup).toList ++ ['\n'])))
      [("  \x7b\x7bfieldDecorator:" ++ field.type.text ++ "\x7d\x7d" ++
        field.member inGroup).toList] := by
  have oneLine : '\n' ∉ (field.member inGroup).toList := plain.lineFeed_not_mem_member
  have opened : "  \x7b\x7bfieldDecorator:".toList = ' ' :: ' ' :: Placeholder.opening := by decide
  have braced : Placeholder.opening = '{' :: "\x7bfieldDecorator:".toList := by decide
  have noFeed : '\n' ∉ Placeholder.opening ∧ '\n' ∉ Placeholder.closing := by decide
  have line : Presents
      (' ' :: ' ' :: (Placeholder.opening ++ field.type.text.toList ++ Placeholder.closing ++
        (field.member inGroup).toList ++ ['\n']))
      [' ' :: ' ' :: (Placeholder.opening ++ field.type.text.toList ++ Placeholder.closing ++
        (field.member inGroup).toList)] := by
    refine .indented (c := '{') ?_ ?_ (by decide) (by decide) ?_
    · rw [braced]
      rfl
    · simp only [List.mem_append, not_or]
      exact ⟨⟨⟨noFeed.1, plain.type⟩, noFeed.2⟩, oneLine⟩
    · rw [braced]
      exact fun found => absurd (List.cons_prefix_cons.mp found).1 (by decide)
  rw [Placeholder.tokenChars, ← List.append_assoc]
  simp only [String.toList_append, opened]
  exact line

/-- What fills the slot of a field's type and the declaration behind it are the entry of the
field. -/
theorem presents_entry (known : KnownTypes) :
    Presents (' ' :: ' ' :: ((if field.type.isScalar then [] else known.slotText field.type) ++
        ((field.member inGroup).toList ++ ['\n'])))
      ((known.entry inGroup field).map String.toList) := by
  have alone : Presents _ [("  " ++ field.member inGroup).toList] := plain.presents_member
  rw [KnownTypes.entry, KnownTypes.slotText]
  cases field.type.isScalar with
  | true => exact alone
  | false =>
    cases known.find? field.type with
    | none => exact plain.presents_token
    | some declaration =>
      cases declaration with
      | record head nested =>
        simpa [Presents.margin_one] using plain.presents_association.append alone
      | enumeration body => exact alone
      | service body => exact alone

/-- The text of a field presents its entry. -/
theorem presents_fill (known : KnownTypes) :
    Presents (Template.fill known.slotText (field.template inGroup))
      ((known.entry inGroup field).map String.toList) := by
  have slot :
      Template.fill known.slotText (if field.type.isScalar then [] else [.slot field.type]) =
        if field.type.isScalar then [] else known.slotText field.type := by
    split <;> simp [Piece.fill]
  have entry : Presents _ ((known.entry inGroup field).map String.toList) :=
    plain.presents_entry known
  rw [← declaration_bareProperty] at entry
  rw [template]
  simp only [Template.fill_cons, Template.fill_append, Template.fill_nil, Piece.fill, slot,
    List.append_nil, Presents.margin_one]
  exact (Presents.comments field.documentation).append entry

end PlainTexts

end Field

theorem presents_fields {fields : List Field} (plain : ∀ field ∈ fields, field.PlainTexts)
    (known : KnownTypes) (inGroup : Bool) :
    Presents (Template.fill known.slotText (fields.flatMap (Field.template inGroup)))
      ((fields.flatMap (known.entry inGroup)).map String.toList) := by
  rw [Template.fill_flatMap, List.map_flatMap]
  exact .flatMap fun field member => (plain field member).presents_fill known

/-- The text of a group presents the entries of its fields. -/
theorem OneOf.presents_fill {group : OneOf} (named : '\n' ∉ group.name.toList)
    (plain : ∀ field ∈ group.fields, field.PlainTexts) (known : KnownTypes) :
    Presents (Template.fill known.slotText group.template)
      ((group.fields.flatMap (known.entry true)).map String.toList) := by
  have heading :
      '\n' ∉ (group.name ++ ": At most one of these fields will be non-null").toList := by
    rw [String.toList_append, List.mem_append, not_or]
    exact ⟨named, by decide⟩
  rw [template, Template.fill_cons, Piece.fill, Fragment.charsAll_cons, Fragment.chars]
  exact ((Presents.comment heading).append (.comments _)).append (presents_fields plain known true)

/-- The members of a class present the entries of the record. -/
theorem Record.presents_members {record : Record}
    (plain : ∀ field ∈ record.allFields, field.PlainTexts)
    (named : ∀ group ∈ record.oneOfs, '\n' ∉ group.name.toList) (known : KnownTypes) :
    Presents (Template.fill known.slotText record.memberTemplate)
      ((known.entries record).map String.toList) := by
  obtain ⟨fieldsPlain, groupsPlain⟩ := List.forall_mem_append.mp plain
  rw [List.forall_mem_flatMap] at groupsPlain
  have fields := presents_fields fieldsPlain known false
  have groups : List.Forall₂ Presents
      ((record.oneOfs.map OneOf.template).map (Template.fill known.slotText))
      (record.oneOfs.map fun group =>
        (group.fields.flatMap (known.entry true)).map String.toList) := by
    rw [List.map_map, List.forall₂_map_left_iff, List.forall₂_map_right_iff, List.forall₂_same]
    intro group listed
    exact OneOf.presents_fill (named group listed) (groupsPlain group listed) known
  have joined : (record.oneOfs.map fun group =>
        (group.fields.flatMap (known.entry true)).map String.toList).flatten =
      (record.oneOfs.flatMap fun group => group.fields.flatMap (known.entry true)).map
        String.toList := by
    rw [← List.flatMap_def, List.map_flatMap]
  rw [memberTemplate, Template.fill_separated, List.map_append, KnownTypes.entries,
    List.map_append, ← joined]
  split
  next empty =>
    rw [List.isEmpty_iff.mp empty]
    exact .intercalate groups
  next => exact .intercalate (.cons fields groups)

namespace Text

/-- Whole lines are split off one by one. -/
theorem splitOn_lines {lines : List (List Char)} (oneLine : ∀ line ∈ lines, '\n' ∉ line)
    (rest : List Char) :
    (lines.flatMap (· ++ ['\n']) ++ rest).splitOn '\n' = lines ++ rest.splitOn '\n' := by
  induction lines with
  | nil => rfl
  | cons line lines ih =>
    obtain ⟨head, tail⟩ := List.forall_mem_cons.mp oneLine
    rw [List.flatMap_cons, List.append_assoc, List.append_assoc, List.singleton_append,
      List.splitOn_append_cons_self, List.splitOn_eq_singleton head, ih tail]
    rfl

/-- The first line of a text starts as the text does. -/
theorem exists_splitOn_append {start : List Char} (oneLine : '\n' ∉ start) (rest : List Char) :
    ∃ line later, (start ++ rest).splitOn '\n' = (start ++ line) :: later := by
  by_cases lineFeed : '\n' ∈ rest
  · obtain ⟨line, later, rfl, closed⟩ := List.eq_append_cons_of_mem lineFeed
    refine ⟨line, later.splitOn '\n', ?_⟩
    rw [← List.append_assoc, List.splitOn_append_cons_self,
      List.splitOn_eq_singleton (by simp [oneLine, closed])]
    rfl
  · exact ⟨rest, [], List.splitOn_eq_singleton (by simp [oneLine, lineFeed])⟩

/-- The properties of a class are read from behind its head up to where they end. -/
theorem propertyLines_eq {comments code : List (List Char)} {header members rest : List Char}
    (commented : ∀ line ∈ comments, '\n' ∉ line ∧ isComment line = true)
    (headed : '\n' ∉ header ∧ isComment header = false) (presents : Presents members code)
    (ended : ((rest.splitOn '\n').takeWhile fun line => !endsProperties line).filter isCode = []) :
    propertyLines (String.ofList
        (comments.flatMap (· ++ ['\n']) ++ (header ++ '\n' :: (members ++ rest)))) =
      code.map String.ofList := by
  obtain ⟨lines, rfl, inside, rfl⟩ := presents
  have split : (comments.flatMap (· ++ ['\n']) ++
        (header ++ '\n' :: (lines.flatMap (· ++ ['\n']) ++ rest))).splitOn '\n' =
      comments ++ header :: (lines ++ rest.splitOn '\n') := by
    rw [splitOn_lines fun line member => (commented line member).1,
      List.splitOn_append_cons_self, List.splitOn_eq_singleton headed.1,
      splitOn_lines fun line member => (inside line member).1]
    rfl
  have body : ((comments ++ header :: (lines ++ rest.splitOn '\n')).dropWhile isComment).tail =
      lines ++ rest.splitOn '\n' := by
    rw [List.dropWhile_append_of_pos fun line member => (commented line member).2,
      List.dropWhile_cons_of_neg (by simp [headed.2]), List.tail_cons]
  have kept : ∀ line ∈ lines, (!endsProperties line) = true := by
    intro line member
    rw [(inside line member).2]
    rfl
  simp only [propertyLines, String.toList_ofList]
  rw [split, body, List.takeWhile_append_of_pos kept, List.filter_append, ended, List.append_nil]

end Text

/-- The comments above a class are lines that hold nothing else. -/
theorem Fragment.exists_commentLines (documentation : String) :
    ∃ lines : List (List Char),
      charsAll .standard 0 (comments (docLines documentation)) = lines.flatMap (· ++ ['\n']) ∧
        ∀ line ∈ lines, '\n' ∉ line ∧ isComment line = true := by
  refine ⟨(docLines documentation).map fun line => (commentText line).toList, ?_, ?_⟩
  · rw [comments, charsAll_eq_flatMap, List.flatMap_map, List.flatMap_map]
    simp [chars, Indent.lineChars, Indent.margin]
  · rw [List.forall_mem_map]
    intro line member
    exact ⟨lineFeed_not_mem_commentText (lineFeed_not_mem_docLine member),
      isComment_commentText .standard 0 line⟩

/-- A constructor starts with its keyword. -/
theorem TypeScript.Constructor.isPrefix_fragments (method : Constructor) :
    "  constructor(".toList <+: Fragment.charsAll .standard 1 method.fragments := by
  rw [Constructor.fragments]
  split
  · simp [Fragment.chars, Indent.lineChars, Presents.margin_one]
  · simp [Fragment.braced, Fragment.chars, Indent.lineChars, Presents.margin_one]

namespace Record

variable {record : Record}

/-- The properties of a record's class end at its constructor, or with the class if it has none. -/
theorem endsProperties_constructorChars :
    (((record.constructorChars ++ Indent.standard.lineChars 0 "\x7d").splitOn '\n').takeWhile
      fun line => !endsProperties line).filter isCode = [] := by
  rw [constructorChars]
  split
  next method _ =>
    obtain ⟨rest, starts⟩ := method.isPrefix_fragments
    have oneLine : '\n' ∉ "  constructor(".toList := by decide
    obtain ⟨line, later, first⟩ := exists_splitOn_append oneLine
      (rest ++ Indent.standard.lineChars 0 "\x7d")
    have ends : endsProperties ("  constructor(".toList ++ line) = true := by
      rw [endsProperties, Bool.or_eq_true, List.isPrefixOf_iff_prefix]
      exact .inl (List.prefix_append _ _)
    have blank : endsProperties [] = false ∧ isCode [] = false := by decide
    rw [← starts, List.cons_append, List.append_assoc, ← List.nil_append ('\n' :: _),
      List.splitOn_append_cons_self, first]
    generalize "  constructor(".toList ++ line = opened at ends
    simp [ends, blank]
  next => decide

/-- The head of a record's class is one line of code. -/
theorem header_isCode (plain : '\n' ∉ record.type.text.toList) {ending : String}
    (oneLine : '\n' ∉ ending.toList) :
    '\n' ∉ (record.header ++ ending).toList ∧
      isComment (record.header ++ ending).toList = false := by
  have called := TypeName.lineFeed_not_mem_called plain
  have visible : isBlank 'e' = false := by decide
  obtain ⟨rest, starts, restLine⟩ :
      ∃ rest, record.header.toList = 'e' :: rest ∧ '\n' ∉ rest := by
    rw [header, Class.header]
    dsimp only
    split
    · exact ⟨"xport default class ".toList ++ record.type.called.toList, by simp, by simp [called]⟩
    · exact ⟨"xport class ".toList ++ record.type.called.toList, by simp, by simp [called]⟩
  rw [String.toList_append, starts]
  refine ⟨by simp [restLine, oneLine], ?_⟩
  rw [isComment, ← Bool.not_eq_true, List.isPrefixOf_iff_prefix]
  simp [trimStart, visible]

end Record

namespace KnownTypes

variable {known : KnownTypes} {record : Record} {item : TypeScript.Class}

/-- The properties that the class of a record is written with are the entries of its fields. -/
theorem propertyLines_recordClass (plain : record.PlainTexts)
    (done : known.recordClass record = .ok item) :
    propertyLines (Page.addAll {} item.fragments).text = known.entries record := by
  obtain ⟨above, comments, commented⟩ := Fragment.exists_commentLines record.documentation
  have entries : ((known.entries record).map String.toList).map String.ofList =
      known.entries record := by
    simp
  rw [Page.text_addAll, fill_record done, Record.template, Template.fill_cons, Piece.fill, comments]
  split
  next empty =>
    have nothing : known.entries record = [] := by simp [KnownTypes.entries, empty]
    have read := propertyLines_eq commented
      (Record.header_isCode plain.type (by decide : '\n' ∉ " \x7b\x7d".toList)) .nil
      (by decide :
        (([].splitOn '\n').takeWhile fun line => !endsProperties line).filter isCode = [])
    rw [nothing]
    simpa [Piece.fill, Indent.lineChars, Indent.margin] using read
  next =>
    have named : ∀ group ∈ record.oneOfs, '\n' ∉ group.name.toList :=
      fun group listed => lineFeed_not_mem_of_isIdentifier (plain.groups group listed)
    have read := propertyLines_eq commented
      (Record.header_isCode plain.type (by decide : '\n' ∉ " \x7b".toList))
      (Record.presents_members plain.fields named known) record.endsProperties_constructorChars
    rw [entries] at read
    simpa [Piece.fill, Indent.lineChars, Indent.margin] using read

/-- Writing the class of a record records its unknown field types as waited for, and nothing
else. -/
theorem records_placeholders (done : known.recordClass record = .ok item) {references : References}
    {declaring referenced : TypeName} :
    (references.insertAll ((known.placeholders record).map fun type => (record.type, type))).Records
        declaring referenced ↔
      references.Records declaring referenced ∨
        declaring = record.type ∧ ∃ field ∈ record.allFields, field.type = referenced ∧
          field.type.isScalar = false ∧ known.find? field.type = none := by
  rw [References.records_insertAll, placeholders_eq ⟨item, done⟩, or_comm]
  refine or_congr_right ?_
  simp only [Record.referencedTypes, List.mem_map, List.mem_filter, Prod.mk.injEq, contains,
    Bool.not_eq_true', Option.isSome_eq_false_iff, Option.isNone_iff_eq_none]
  constructor
  · rintro ⟨-, ⟨⟨⟨field, listed, rfl⟩, noScalar⟩, unknown⟩, rfl, rfl⟩
    exact ⟨rfl, field, listed, rfl, noScalar, unknown⟩
  · rintro ⟨rfl, field, listed, rfl, noScalar, unknown⟩
    exact ⟨field.type, ⟨⟨⟨field, listed, rfl⟩, noScalar⟩, unknown⟩, rfl, rfl⟩

/-- Between its head and its constructor, the class of a record has the entry of each field, in
order and nothing else, and the types recorded for it are those of the entries with tokens. -/
theorem recordClass_declares_fields (plain : record.PlainTexts)
    (done : known.recordClass record = .ok item) (references : References) :
    propertyLines (Page.addAll {} item.fragments).text = known.entries record ∧
      (∀ field ∈ record.allFields, field.type.className = .ok field.type.called) ∧
      ∀ declaring referenced,
        (references.insertAll
            ((known.placeholders record).map fun type => (record.type, type))).Records
          declaring referenced ↔
            references.Records declaring referenced ∨
              declaring = record.type ∧ ∃ field ∈ record.allFields, field.type = referenced ∧
                field.type.isScalar = false ∧ known.find? field.type = none := by
  refine ⟨propertyLines_recordClass plain done, ?_, fun _ _ => records_placeholders done⟩
  intro field listed
  obtain ⟨name, named⟩ := ((exists_recordClass_iff.mp ⟨item, done⟩).2 field listed).1
  rw [TypeName.called_eq named, named]

/-- A record and an enumeration that the following record refers to. -/
def harborTypes : KnownTypes where
  declarations := [.record { type := ⟨"harbor.Ship"⟩ } [], .enumeration { type := ⟨"harbor.Flag"⟩ }]

/-- A record with a field of every kind. -/
def berth : Record where
  type := ⟨"harbor.Berth"⟩
  fields :=
    [{ name := "code", type := ⟨"string"⟩, defaultValue := some "A1", documentation := "Painted." },
      { name := "ships", type := ⟨"harbor.Ship"⟩, cardinality := .repeated },
      { name := "flag", type := ⟨"harbor.Flag"⟩, cardinality := .optional },
      { name := "pilot", type := ⟨"harbor.Pilot"⟩ }]
  oneOfs := [{ name := "fee", fields := [{ name := "daily", type := ⟨"int32"⟩ }] }]

theorem berth_declares_fields : ∃ item, harborTypes.recordClass berth = .ok item ∧
    propertyLines (Page.addAll {} item.fragments).text =
      ["  code: string = \"A1\"", "  @Type(() => Ship)", "  ships: Ship[] = []",
        "  flag?: Flag = undefined", "  \x7b\x7bfieldDecorator:harbor.Pilot\x7d\x7dpilot: Pilot",
        "  daily?: number = undefined"] ∧
      (References.insertAll {}
        ((harborTypes.placeholders berth).map fun type => (berth.type, type))).Records
          berth.type ⟨"harbor.Pilot"⟩ := by
  have texts : ∀ field ∈ berth.allFields, isIdentifier field.memberName = true ∧
      (∀ value ∈ field.defaultValue, '\n' ∉ value.toList) ∧ '\n' ∉ field.type.text.toList := by
    decide
  have plain : berth.PlainTexts :=
    ⟨fun field listed =>
      ⟨(texts field listed).1, (texts field listed).2.1, (texts field listed).2.2⟩,
      by decide, by decide⟩
  have entries : harborTypes.entries berth =
      ["  code: string = \"A1\"", "  @Type(() => Ship)", "  ships: Ship[] = []",
        "  flag?: Flag = undefined", "  \x7b\x7bfieldDecorator:harbor.Pilot\x7d\x7dpilot: Pilot",
        "  daily?: number = undefined"] := by decide +kernel
  have succeeds : (harborTypes.recordClass berth).isOk = true := by decide
  cases done : harborTypes.recordClass berth with
  | error reason =>
    rw [done] at succeeds
    cases succeeds
  | ok item =>
    obtain ⟨read, -, recorded⟩ := recordClass_declares_fields plain done {}
    refine ⟨item, rfl, read.trans entries, (recorded _ _).mpr (.inr ⟨rfl, ?_⟩)⟩
    exact ⟨{ name := "pilot", type := ⟨"harbor.Pilot"⟩ }, by decide, rfl, by decide, by decide⟩

end KnownTypes

end Typescribe
