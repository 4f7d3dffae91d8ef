import Typescribe.Proofs.Generation.Location
import Typescribe.Proofs.Generation.TypeTemplate
import Typescribe.Proofs.Placeholder.DerivedTexts
import Typescribe.Proofs.TypeScript.UnmarkedLines

/-!
# Templates of well-formed schemas

Where no text of a schema has a mark, the templates of its types are sound: nothing but a slot can
be taken for a token. What fills the slot of a known type is settled, and it is the same text that
replaces the token of the type.
-/

namespace Typescribe

open TypeScript Placeholder

open Fragment (UnmarkedLines)

theorem TypeName.unmarked_called {type : TypeName} (braceless : Braceless type.text.toList) :
    Unmarked type.called.toList := by
  rw [called]
  cases named : type.className with
  | ok name => exact .of_braceless (className_braceless braceless named)
  | error reason => exact .nil

theorem TypeName.unmarked_fieldType {type : TypeName} (braceless : Braceless type.text.toList)
    (repeated : Bool) :
    Unmarked (if repeated then listOf type.called else type.called).toList := by
  have called := unmarked_called braceless
  split
  · exact called.append_literal (.of_not_mem (by decide)) (by decide)
  · exact called

namespace Field

variable {field : Field} (texts : ∀ text ∈ field.texts, Unmarked text.toList)
include texts

theorem unmarked_memberName : Unmarked field.memberName.toList := by
  rw [memberName]
  cases given : field.jsonName with
  | none => exact texts field.name (by simp [Field.texts])
  | some name => exact texts name (by simp [Field.texts, given])

theorem unmarked_literal : ∀ literal ∈ field.literal?, Unmarked literal.toList := by
  intro literal member
  rw [literal?, Option.mem_def, Option.map_eq_some_iff] at member
  obtain ⟨value, given, rfl⟩ := member
  have unmarked := texts value (by simp [Field.texts, given])
  split
  · exact unmarked.quote
  · exact unmarked

theorem unmarked_initializer (isOptional : Bool) :
    ∀ value ∈ field.initializer? isOptional, Unmarked value.toList := by
  intro value member
  rw [initializer?, Option.mem_def] at member
  split at member
  next literal given =>
    exact Option.some.inj member ▸ unmarked_literal texts literal given
  next =>
    split at member
    · exact Option.some.inj member ▸ .of_not_mem (by decide)
    · split at member
      · exact Option.some.inj member ▸ .of_not_mem (by decide)
      · cases member

/-- The template of a field is sound. -/
theorem sound_template (braceless : Braceless field.type.text.toList) (inGroup : Bool) :
    Template.Sound (field.template inGroup) := by
  have doc : ∀ line ∈ (field.bareProperty inGroup).doc, Unmarked line.toList :=
    Unmarked.docLines (texts field.documentation (by simp [Field.texts]))
  have declaration : Unmarked (field.bareProperty inGroup).declaration.toList :=
    Property.unmarked_declaration (unmarked_memberName texts)
      (TypeName.unmarked_fieldType braceless _) (unmarked_initializer texts _)
  rw [template]
  apply Template.Sound.text (Fragment.settled_charsAll _ _ _ (.comments doc))
  apply Template.Sound.text Fragment.settled_margin
  apply Template.Sound.append
  · split
    · exact .nil
    · exact .slot braceless .nil
  · exact .text (Settled.line declaration) .nil

theorem isUnmarked_param (braceless : Braceless field.type.text.toList) {param : Param}
    (done : Record.param field = .ok param) : param.IsUnmarked := by
  obtain ⟨type, typed, rest⟩ := bind_eq_ok.mp done
  obtain rfl := pure_eq_ok.mp rest
  constructor
  · exact unmarked_memberName texts
  · rw [fieldType_eq typed]
    exact TypeName.unmarked_fieldType braceless false
  · exact unmarked_literal texts

end Field

/-- The template of a group is sound. -/
theorem OneOf.sound_template {group : OneOf} (texts : ∀ text ∈ group.texts, Unmarked text.toList)
    (braceless : ∀ field ∈ group.fields, Braceless field.type.text.toList) :
    Template.Sound group.template := by
  rw [OneOf.texts, List.forall_mem_cons, List.forall_mem_cons, List.forall_mem_flatMap] at texts
  obtain ⟨name, documentation, fields⟩ := texts
  rw [template]
  apply Template.Sound.text
  · apply Fragment.settled_charsAll
    apply UnmarkedLines.comment
    · exact name.append_literal (.of_not_mem (by decide)) (by decide)
    · exact .comments (Unmarked.docLines documentation)
  · apply Template.Sound.flatMap
    exact fun field listed =>
      field.sound_template (fields field listed) (braceless field listed) true

namespace Record

variable {record : Record}
  (fieldTexts : ∀ field ∈ record.fields, ∀ text ∈ field.texts, Unmarked text.toList)
  (groupTexts : ∀ group ∈ record.oneOfs, ∀ text ∈ group.texts, Unmarked text.toList)
  (braceless : ∀ field ∈ record.allFields, Braceless field.type.text.toList)

include fieldTexts groupTexts braceless in
theorem sound_memberTemplate : Template.Sound record.memberTemplate := by
  rw [allFields, List.forall_mem_append, List.forall_mem_flatMap] at braceless
  rw [memberTemplate]
  apply Template.Sound.separated
  rw [List.forall_mem_append]
  constructor
  · split
    · exact fun _ member => absurd member List.not_mem_nil
    · rw [List.forall_mem_singleton]
      apply Template.Sound.flatMap
      exact fun field listed =>
        field.sound_template (fieldTexts field listed) (braceless.1 field listed) false
  · intro part member
    obtain ⟨group, listed, rfl⟩ := List.mem_map.mp member
    exact group.sound_template (groupTexts group listed) (braceless.2 group listed)

include fieldTexts braceless in
theorem settled_constructorChars (ownBraceless : Braceless record.type.text.toList) :
    Settled record.constructorChars := by
  rw [constructorChars]
  split
  next method written =>
    rw [constructor?] at written
    split at written
    · cases written
    · obtain ⟨params, done, rest⟩ := bind_eq_ok.mp written
      obtain rfl := Option.some.inj (pure_eq_ok.mp rest)
      apply (Settled.line .nil).append
      apply Fragment.settled_charsAll
      apply Constructor.unmarkedLines
      · intro param member
        obtain ⟨field, required, made⟩ := exists_of_mem_mapM done member
        have listed := List.mem_of_mem_filter required
        exact field.isUnmarked_param (fieldTexts field listed)
          (braceless field (List.mem_append_left _ listed)) made
      · intro name member
        split at member
        · exact Option.some.inj member ▸ TypeName.unmarked_called ownBraceless
        · cases member
  next => exact .nil

include fieldTexts groupTexts braceless in
/-- The template of a record's class is sound. -/
theorem sound_template (ownBraceless : Braceless record.type.text.toList)
    (documentation : Unmarked record.documentation.toList) : Template.Sound record.template := by
  have header : Unmarked record.header.toList :=
    Class.unmarked_header (TypeName.unmarked_called ownBraceless)
  rw [template]
  apply Template.Sound.text (Fragment.settled_charsAll _ _ _ (.comments documentation.docLines))
  split
  · have line := header.append_literal unmarked_braces (by decide)
    exact .text (Fragment.settled_lineChars _ _ line) .nil
  · have opened : Unmarked " \x7b".toList := .of_capital_not_mem (by decide)
    have line := header.append_literal opened (by decide)
    apply Template.Sound.text (Fragment.settled_lineChars _ _ line)
    apply (sound_memberTemplate fieldTexts groupTexts braceless).append
    apply Template.Sound.text (settled_constructorChars fieldTexts braceless ownBraceless)
    exact .text (Fragment.settled_lineChars _ _ (.of_not_mem (by decide))) .nil

end Record

theorem Enumeration.unmarkedLines {body : Enumeration} {item : Enum}
    (done : body.declaration = .ok item) (braceless : Braceless body.type.text.toList)
    (documentation : Unmarked body.documentation.toList)
    (constants : ∀ constant ∈ body.constants,
      Unmarked constant.name.toList ∧ Unmarked constant.documentation.toList) :
    UnmarkedLines item.fragments := by
  obtain ⟨name, named, rest⟩ := bind_eq_ok.mp done
  obtain rfl := pure_eq_ok.mp rest
  apply Enum.unmarkedLines
  · exact .of_braceless (TypeName.className_braceless braceless named)
  · exact documentation.docLines
  · intro member listed
    obtain ⟨constant, given, rfl⟩ := List.mem_map.mp listed
    exact ⟨(constants constant given).1, (constants constant given).2.docLines⟩

/-- The template of a declaration is sound if its texts have no marks and its types no braces. -/
theorem Declaration.sound_ownTemplate {declaration : Declaration}
    (texts : ∀ text ∈ declaration.texts, Unmarked text.toList)
    (braceless : ∀ type ∈ declaration.mentionedTypes, Braceless type.text.toList) :
    Template.Sound declaration.ownTemplate := by
  cases declaration with
  | record head nested =>
    rw [Declaration.texts, List.forall_mem_cons, List.forall_mem_append, List.forall_mem_flatMap,
      List.forall_mem_flatMap] at texts
    rw [mentionedTypes, List.forall_mem_cons, List.forall_mem_map] at braceless
    exact head.sound_template texts.2.1 texts.2.2 braceless.2 braceless.1 texts.1
  | enumeration body =>
    rw [Declaration.texts, List.forall_mem_cons, List.forall_mem_flatMap] at texts
    rw [mentionedTypes, List.forall_mem_singleton] at braceless
    refine .text (Fragment.settled_charsAll _ _ _ ?_) .nil
    cases done : body.declaration with
    | ok item =>
      refine body.unmarkedLines done braceless texts.1 fun constant listed => ?_
      have both := texts.2 constant listed
      rwa [List.forall_mem_cons, List.forall_mem_singleton] at both
    | error reason => exact .nil
  | service body => exact .nil

namespace TypeName

theorem braceless_of_mem_segments {type : TypeName} (braceless : Braceless type.text.toList)
    {segment : String} (member : segment ∈ type.segments) : Braceless segment.toList :=
  braceless.of_subset (mem_segments member).2.2

theorem relativeDir_braceless {destination : TypeName}
    (braceless : Braceless destination.text.toList) (source : TypeName) :
    Braceless (relativeDir source destination).toList := by
  rw [relativeDir, String.toList_intercalate]
  apply Braceless.intercalate (by decide)
  intro part listed
  obtain ⟨step, member, rfl⟩ := List.mem_map.mp listed
  rw [relativeSteps] at member
  rcases List.mem_append.mp member with out | into
  · split at out
    · rw [List.mem_singleton.mp out]
      decide
    · rw [List.eq_of_mem_replicate out]
      decide
  · exact braceless_of_mem_segments braceless
      (mem_segments_of_mem_package (List.mem_of_mem_drop into))

/-- The import of a type has no mark. -/
theorem unmarked_import {source destination : TypeName} {item : Import}
    (braceless : Braceless destination.text.toList)
    (done : importInto source destination = .ok item) : Unmarked item.line.toList := by
  obtain ⟨name, named, specified, binding⟩ := importInto_eq_ok done
  have called : Unmarked name.toList := .of_braceless (className_braceless braceless named)
  have specifier : Unmarked item.source.toList := by
    rw [moduleSpecifier] at specified
    split at specified
    next => cases specified
    next outermost inner parts =>
      have outer : Braceless outermost.toList := by
        apply braceless_of_mem_segments braceless (mem_segments_of_mem_names _)
        rw [parts]
        exact List.mem_cons_self
      rw [← Except.ok.inj specified, String.toList_append, String.toList_append]
      exact .of_braceless
        (((relativeDir_braceless braceless source).append (by decide)).append outer)
  apply Import.unmarked_line specifier
  · split at binding
    · rw [binding.1]
      rintro _ ⟨⟩
      exact called
    · rw [binding.1]
      rintro _ ⟨⟩
  · split at binding
    · rw [binding.2]
      exact fun _ member => absurd member List.not_mem_nil
    · rw [binding.2]
      exact List.forall_mem_singleton.mpr called

end TypeName

theorem unmarked_decoratorImport :
    Unmarked (Import.line { source := "class-transformer", named := ["Type"] }).toList :=
  Import.unmarked_line (.of_not_mem (by decide)) (fun _ given => by cases given)
    (List.forall_mem_singleton.mpr (.of_not_mem (by decide)))

/-- The imports of a type's module have no marks. -/
theorem Declaration.unmarked_imports {declaration : Declaration} {imports : List Import}
    (done : declaration.imports = .ok imports)
    (braceless : ∀ type ∈ declaration.referencedTypes, Braceless type.text.toList) :
    ∀ item ∈ imports, Unmarked item.line.toList := by
  intro item listed
  rcases (Declaration.mem_imports_iff done).mp listed with ⟨-, rfl⟩ | ⟨type, referenced, -, made⟩
  · exact unmarked_decoratorImport
  · exact TypeName.unmarked_import (braceless type referenced) made

namespace KnownTypes

variable {known other : KnownTypes} {type : TypeName}

theorem slotText_of_not_contains (unknown : known.contains type = false) :
    known.slotText type = tokenChars type.text.toList := by
  rw [slotText, find?_eq_none_iff.mpr unknown]

theorem slotText_congr (same : known.find? type = other.find? type) :
    known.slotText type = other.slotText type := by
  rw [slotText, same, slotText]

/-- What replaces the token of a known type is what fills its slot. -/
theorem toList_replacement {declaration : Declaration} {text : String}
    (found : known.find? declaration.type = some declaration)
    (given : replacement declaration = .ok text) :
    text.toList = known.slotText declaration.type := by
  rw [slotText, found]
  cases declaration with
  | record head nested =>
    rw [replacement] at given
    split at given
    next name named =>
      rw [Declaration.type, TypeName.called_eq named, ← Except.ok.inj given]
      simp [Indent.margin]
    next => cases given
  | enumeration body =>
    rw [replacement, Except.ok.injEq] at given
    rw [← given]
    rfl
  | service body => cases given

/-- No known type has a brace in its name. -/
def BracelessNames (known : KnownTypes) : Prop :=
  ∀ declaration ∈ known.declarations, Braceless declaration.type.text.toList

namespace BracelessNames

variable (braceless : known.BracelessNames)
include braceless

/-- What fills the slot of a known type is settled. -/
theorem settled_slotText (contained : known.contains type = true) :
    Settled (known.slotText type) := by
  obtain ⟨declaration, listed, rfl⟩ := contains_iff.mp contained
  have called := TypeName.unmarked_called (braceless declaration listed)
  rw [slotText]
  split
  · exact (Settled.line (unmarked_association called)).append Fragment.settled_margin
  · exact .nil
  next unknown =>
    rw [contains, unknown] at contained
    exact absurd contained Bool.false_ne_true

/-- The slot of a type holds its token exactly if the type is not known. -/
theorem slotText_eq_token_iff :
    known.slotText type = tokenChars type.text.toList ↔ known.contains type = false := by
  constructor
  · intro isToken
    rw [← Bool.not_eq_true]
    intro contained
    exact Template.not_settled_tokenChars _ (isToken ▸ settled_slotText braceless contained)
  · exact slotText_of_not_contains

theorem steady_slotText : Template.Steady known.slotText := by
  intro type
  cases contained : known.contains type with
  | true => exact .inr (settled_slotText braceless contained)
  | false => exact .inl (slotText_of_not_contains contained)

end BracelessNames

end KnownTypes

namespace BracelessTypes

variable {roots : List Declaration} {root : Declaration} (braceless : BracelessTypes roots)
include braceless

/-- Every type that a declaration refers to has a name without braces. -/
theorem of_mem_referencedTypes (member : root ∈ roots) {type : TypeName}
    (referenced : type ∈ root.referencedTypes) : Braceless type.text.toList := by
  rw [Declaration.referencedTypes_eq, List.mem_flatMap] at referenced
  obtain ⟨part, inside, referenced⟩ := referenced
  obtain ⟨-, field, listed, rfl⟩ := Declaration.mem_ownReferences.mp referenced
  refine braceless part (Declaration.mem_flattenAll.mpr ⟨root, member, inside⟩) _ ?_
  cases part with
  | record head nested => exact List.mem_cons_of_mem _ (List.mem_map_of_mem listed)
  | enumeration body => exact absurd listed List.not_mem_nil
  | service body => exact absurd listed List.not_mem_nil

/-- The template of a type's module is sound. -/
theorem sound_template (unmarkedTexts : UnmarkedTexts roots) (member : root ∈ roots) :
    Template.Sound root.template := by
  rw [Declaration.template]
  apply Template.Sound.separated
  rw [List.forall_mem_append, List.forall_mem_map]
  constructor
  · split
    · exact fun _ member => absurd member List.not_mem_nil
    · rw [List.forall_mem_singleton]
      refine .text (Fragment.settled_charsAll _ _ _ ?_) .nil
      rw [Declaration.importFragments, ← Function.comp_def, ← List.map_map]
      apply UnmarkedLines.lines
      intro line listed
      obtain ⟨item, kept, rfl⟩ := List.mem_map.mp listed
      rw [List.mem_eraseDups] at kept
      cases done : root.imports with
      | ok imports =>
        rw [done] at kept
        exact Declaration.unmarked_imports done
          (fun type => of_mem_referencedTypes braceless member) item kept
      | error reason =>
        rw [done] at kept
        exact absurd kept List.not_mem_nil
  · intro part inside
    have declared := Declaration.mem_flattenAll.mpr ⟨root, member, inside⟩
    exact Declaration.sound_ownTemplate (unmarkedTexts part declared) (braceless part declared)

end BracelessTypes

namespace WellFormed

variable {roots : List Declaration}

theorem bracelessTypes (wellFormed : WellFormed roots) : BracelessTypes roots :=
  fun declaration declared type mentioned =>
    (wellFormed.plain declaration declared type mentioned).braceless

theorem bracelessNames (wellFormed : WellFormed roots) :
    (KnownTypes.knowing roots).BracelessNames := by
  intro declaration listed
  rcases List.mem_append.mp listed with isTimestamp | declared
  · rw [List.mem_singleton.mp isTimestamp]
    exact TypeName.timestamp_braceless
  · exact (wellFormed.type_isPlain declared).braceless

end WellFormed

end Typescribe
