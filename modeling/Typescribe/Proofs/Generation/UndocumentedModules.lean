import Typescribe.Proofs.Generation.SettledService
import Typescribe.Proofs.Generation.SoundTemplate
import Typescribe.Proofs.Schema.Undocumented
import Typescribe.Proofs.Text.CodeLines

/-!
# Modules of undocumented declarations

Generating the module of a declaration fails or succeeds whatever is documented, and leaves the
same placeholders. The module has the same code with and without documentation, however its
placeholders are filled.
-/

namespace Typescribe

open TypeScript Text Placeholder

/-! ## Success and placeholders -/

theorem Record.constructor?_undocumented (record : Record) (name : String) :
    record.undocumented.constructor? name = record.constructor? name := by
  rw [constructor?, constructor?, fieldCount_undocumented, requiredFields_undocumented,
    List.mapM_map]
  rfl

namespace KnownTypes

variable (known : KnownTypes)

theorem decorator_undocumented (type : TypeName) :
    known.undocumented.decorator type = known.decorator type := by
  rw [decorator, decorator, find?_undocumented]
  cases known.find? type with
  | none => rfl
  | some declaration => cases declaration <;> rfl

theorem property_undocumented (inGroup : Bool) (field : Field) :
    EndAlike (fun _ _ => True) (known.property inGroup field)
      (known.undocumented.property inGroup field.undocumented) := by
  rw [property, property, decorator_undocumented, Field.undocumented]
  dsimp only [Field.isRepeated]
  cases field.type.fieldType (field.cardinality == .repeated) with
  | error reason => exact .error reason
  | ok type =>
    cases known.decorator field.type with
    | error reason => exact .error reason
    | ok decorator => exact .ok trivial

theorem propertyFragments_undocumented (inGroup : Bool) (fields : List Field) :
    EndAlike (fun _ _ => True) (known.propertyFragments inGroup fields)
      (known.undocumented.propertyFragments inGroup (fields.map Field.undocumented)) :=
  (EndAlike.mapM fun field _ => known.property_undocumented inGroup field).bind fun _ =>
    .ok trivial

theorem memberFragments_undocumented (record : Record) :
    EndAlike (fun _ _ => True) (known.memberFragments record)
      (known.undocumented.memberFragments record.undocumented) := by
  have groups : ∀ group ∈ record.oneOfs, EndAlike (fun _ _ => True) (known.groupFragments group)
      (known.undocumented.groupFragments group.undocumented) := fun group _ =>
    (known.propertyFragments_undocumented true group.fields).bind fun _ => .ok trivial
  exact (known.propertyFragments_undocumented false record.fields).bind fun _ =>
    (EndAlike.mapM groups).bind fun _ => .ok trivial

theorem recordClass_undocumented (record : Record) :
    EndAlike (fun _ _ => True) (known.recordClass record)
      (known.undocumented.recordClass record.undocumented) := by
  refine (EndAlike.refl record.type.className).bind fun {name _} same => ?_
  obtain rfl := same
  refine (known.memberFragments_undocumented record).bind fun _ => ?_
  rw [record.constructor?_undocumented]
  exact (EndAlike.refl _).bind fun _ => .ok trivial

theorem declarationFragments_undocumented (declaration : Declaration) :
    EndAlike (fun _ _ => True) (known.declarationFragments declaration)
      (known.undocumented.declarationFragments declaration.undocumented) := by
  cases declaration with
  | record head nested => exact (known.recordClass_undocumented head).bind fun _ => .ok trivial
  | enumeration body =>
    have declared : EndAlike (fun _ _ => True) body.declaration body.undocumented.declaration :=
      (EndAlike.refl body.type.className).bind fun _ => .ok trivial
    exact declared.bind fun _ => .ok trivial
  | service body => exact .error _

theorem placeholders_undocumented (record : Record) :
    known.undocumented.placeholders record.undocumented = known.placeholders record := by
  have sameOk : (fun field => (known.undocumented.property false field).isOk) ∘
      Field.undocumented = fun field => (known.property false field).isOk :=
    funext fun field => (known.property_undocumented false field).isOk_eq
  rw [placeholders, placeholders, Record.allFields_undocumented, List.takeWhile_map, sameOk]
  simp only [List.map_map, contains_undocumented]
  rfl

theorem placeholdersOf_undocumented (declarations : List Declaration) :
    known.undocumented.placeholdersOf (declarations.map Declaration.undocumented) =
      known.placeholdersOf declarations := by
  induction declarations with
  | nil => rfl
  | cons declaration rest ih =>
    have sameOk := (known.declarationFragments_undocumented declaration).isOk_eq
    cases declaration with
    | record head nested =>
      simp only [List.map_cons, Declaration.undocumented] at sameOk ⊢
      rw [placeholdersOf, placeholdersOf, sameOk, ih, placeholders_undocumented]
      rfl
    | enumeration body =>
      rw [Declaration.undocumented] at sameOk
      simp [Declaration.undocumented, placeholdersOf, sameOk, ih]
    | service body =>
      rw [Declaration.undocumented] at sameOk
      simp [Declaration.undocumented, placeholdersOf, sameOk, ih]

theorem slotText_undocumented : known.undocumented.slotText = known.slotText := by
  funext type
  rw [slotText, slotText, find?_undocumented]
  cases known.find? type with
  | none => rfl
  | some declaration => cases declaration <;> rfl

end KnownTypes

namespace Declaration

theorem referencedTypes_undocumented (root : Declaration) :
    root.undocumented.referencedTypes = root.referencedTypes := by
  rw [referencedTypes_eq, referencedTypes_eq, flatten_undocumented, List.flatMap_map]
  congr 1
  funext declaration
  cases declaration with
  | record head nested =>
    simp only [undocumented, ownReferences, ownFields, Record.types_undocumented]
  | enumeration body => rfl
  | service body => rfl

theorem imports_undocumented (root : Declaration) : root.undocumented.imports = root.imports := by
  rw [imports, imports, referencedTypes_undocumented, type_undocumented]

end Declaration

theorem KnownTypes.typeModule_undocumented (known : KnownTypes) (root : Declaration) :
    EndAlike (fun _ _ => True) (known.typeModule root)
      (known.undocumented.typeModule root.undocumented) := by
  rw [typeModule, typeModule, Declaration.flatten_undocumented, Declaration.imports_undocumented]
  refine (EndAlike.mapM fun part _ => known.declarationFragments_undocumented part).bind fun _ => ?_
  exact (EndAlike.refl root.imports).bind fun _ => .ok trivial

/-! ## The code of templates -/

variable (value : TypeName → List Char)

theorem Field.fill_template_eq (inGroup : Bool) (field : Field) :
    Template.fill value (field.template inGroup) =
      Fragment.charsAll .standard 1 (Fragment.comments (docLines field.documentation)) ++
        Template.fill value (field.undocumented.template inGroup) := by
  simp [template, bareProperty, undocumented, Piece.fill]
  rfl

theorem Field.endsLine_template (inGroup : Bool) (field : Field) :
    EndsLine (Template.fill value (field.template inGroup)) := by
  simp [template, Piece.fill, EndsLine]

theorem Field.sameCode_template (inGroup : Bool) (field : Field) :
    SameCode (Template.fill value (field.template inGroup))
      (Template.fill value (field.undocumented.template inGroup)) := by
  rw [fill_template_eq]
  exact Fragment.sameCode_commented .standard 1 field.documentation
    (.refl (field.undocumented.endsLine_template value inGroup))

theorem sameCode_fields (inGroup : Bool) (fields : List Field) :
    SameCode (Template.fill value (fields.flatMap (Field.template inGroup)))
      (Template.fill value
        ((fields.map Field.undocumented).flatMap (Field.template inGroup))) := by
  rw [Template.fill_flatMap, Template.fill_flatMap, List.flatMap_map]
  exact .flatMap fun field _ => field.sameCode_template value inGroup

theorem OneOf.sameCode_template (group : OneOf) :
    SameCode (Template.fill value group.template)
      (Template.fill value group.undocumented.template) := by
  have heading := SameCode.refl (Fragment.getLast?_chars .standard 1
    (.comment (group.name ++ ": At most one of these fields will be non-null")))
  have fields := Fragment.sameCode_commented .standard 1 group.documentation
    (sameCode_fields value true group.fields)
  simpa [OneOf.template, OneOf.undocumented, Piece.fill] using heading.append fields

theorem sameCode_map {α : Type} {items : List α} {template : α → Template} {convert : α → α}
    (same : ∀ item ∈ items, SameCode (Template.fill value (template item))
      (Template.fill value (template (convert item)))) :
    List.Forall₂ SameCode ((items.map template).map (Template.fill value))
      (((items.map convert).map template).map (Template.fill value)) := by
  simp only [List.map_map, List.forall₂_map_left_iff, List.forall₂_map_right_iff,
    Function.comp_apply]
  exact List.forall₂_same.mpr same

namespace Record

theorem sameCode_memberTemplate (record : Record) :
    SameCode (Template.fill value record.memberTemplate)
      (Template.fill value record.undocumented.memberTemplate) := by
  rw [memberTemplate, memberTemplate, Template.fill_separated, Template.fill_separated,
    List.map_append, List.map_append]
  refine .intercalate (List.rel_append ?_ (sameCode_map value fun group _ =>
    group.sameCode_template value))
  by_cases empty : record.fields = []
  · simp [undocumented, empty]
  · simpa [undocumented, empty] using sameCode_fields value false record.fields

theorem constructorChars_undocumented (record : Record) :
    record.undocumented.constructorChars = record.constructorChars := by
  rw [constructorChars, constructorChars, constructor?_undocumented]
  rfl

theorem endsLine_constructorChars (record : Record) : EndsLine record.constructorChars := by
  rw [constructorChars]
  split
  · exact (endsLine_concat []).append (Fragment.getLast?_charsAll _ _ _)
  · exact endsLine_nil

theorem sameCode_template (record : Record) :
    SameCode (Template.fill value record.template)
      (Template.fill value record.undocumented.template) := by
  have line : ∀ text, EndsLine (Indent.standard.lineChars 0 text) := fun text => endsLine_concat _
  rw [template, template, Template.fill_cons, Template.fill_cons]
  have noDoc : docLines record.undocumented.documentation = [] := rfl
  have sameHeader : record.undocumented.header = record.header := rfl
  rw [noDoc, sameHeader, constructorChars_undocumented]
  simp only [Piece.fill, Fragment.comments_nil, Fragment.charsAll_nil, List.nil_append]
  refine Fragment.sameCode_commented .standard 0 record.documentation ?_
  by_cases empty : record.fields = [] ∧ record.oneOfs = []
  · have emptyToo : record.undocumented.fields = [] ∧ record.undocumented.oneOfs = [] := by
      simpa [undocumented] using empty
    simpa [empty, emptyToo, Piece.fill] using SameCode.refl (line _)
  · have someToo : ¬ (record.undocumented.fields = [] ∧ record.undocumented.oneOfs = []) := by
      simpa [undocumented] using empty
    rw [if_neg empty, if_neg someToo]
    simpa [Piece.fill] using (SameCode.refl (line (record.header ++ " \x7b"))).append
      ((record.sameCode_memberTemplate value).append
        (.refl (record.endsLine_constructorChars.append (line "\x7d"))))

end Record

theorem Enumeration.sameCode_members (body : Enumeration) :
    SameCode
      (Fragment.charsAll .standard 1 (body.constants.flatMap fun constant =>
        Enum.memberFragments ⟨constant.name, docLines constant.documentation⟩))
      (Fragment.charsAll .standard 1 (body.constants.flatMap fun constant =>
        Enum.memberFragments ⟨constant.name, []⟩)) := by
  rw [Fragment.charsAll_flatMap, Fragment.charsAll_flatMap]
  refine .flatMap fun constant _ => ?_
  rw [Enum.memberFragments, Fragment.charsAll_append]
  exact Fragment.sameCode_commented .standard 1 constant.documentation
    (.refl (Fragment.getLast?_charsAll _ _ _))

theorem TypeScript.Enum.sameCode_fragments {name documentation : String}
    {members plain : List EnumMember} {isDefaultExport : Bool}
    (sameEmpty : plain.isEmpty = members.isEmpty)
    (inside : SameCode (Fragment.charsAll .standard 1 (members.flatMap memberFragments))
      (Fragment.charsAll .standard 1 (plain.flatMap memberFragments))) :
    SameCode
      (Fragment.charsAll .standard 0
        (fragments ⟨name, docLines documentation, members, isDefaultExport⟩))
      (Fragment.charsAll .standard 0 (fragments ⟨name, [], plain, isDefaultExport⟩)) := by
  have same := fun layout => SameCode.refl (Fragment.getLast?_charsAll .standard 0 layout)
  have sameHeader : header ⟨name, [], plain, isDefaultExport⟩ =
    header ⟨name, docLines documentation, members, isDefaultExport⟩ := rfl
  rw [fragments, fragments, Fragment.charsAll_append, Fragment.charsAll_append,
    Fragment.charsAll_append, Fragment.charsAll_append, sameHeader]
  dsimp only
  rw [sameEmpty]
  refine (Fragment.sameCode_comments .standard 0 documentation).append ?_ |>.append (same _)
  split
  · exact same _
  · exact Fragment.sameCode_braced _ inside

theorem Enumeration.sameCode (body : Enumeration) :
    SameCode
      (Fragment.charsAll .standard 0 ((body.declaration.toOption.map Enum.fragments).getD []))
      (Fragment.charsAll .standard 0
        ((body.undocumented.declaration.toOption.map Enum.fragments).getD [])) := by
  rw [declaration, declaration, undocumented]
  dsimp only
  cases body.type.className with
  | error reason =>
    simp only [bind, Except.bind, Except.toOption, Option.map_none, Option.getD_none]
    exact .refl (Fragment.getLast?_charsAll _ _ _)
  | ok name =>
    simp only [bind, Except.bind, pure, Except.pure, Except.toOption, Option.map_some,
      Option.getD_some, docLines_empty]
    refine Enum.sameCode_fragments (by simp) ?_
    rw [List.flatMap_map, List.flatMap_map, List.flatMap_map]
    exact body.sameCode_members

theorem Declaration.sameCode_ownTemplate (declaration : Declaration) :
    SameCode (Template.fill value declaration.ownTemplate)
      (Template.fill value declaration.undocumented.ownTemplate) := by
  cases declaration with
  | record head nested => exact head.sameCode_template value
  | enumeration body =>
    simpa [ownTemplate, undocumented, Piece.fill] using body.sameCode
  | service body => exact .refl endsLine_nil

/-- The module of a type has the same code without documentation, whatever fills its slots. -/
theorem Declaration.sameCode_template (root : Declaration) :
    SameCode (Template.fill value root.template)
      (Template.fill value root.undocumented.template) := by
  have sameImports : root.undocumented.importFragments = root.importFragments := by
    rw [importFragments, importFragments, imports_undocumented]
  rw [template, template, Template.fill_separated, Template.fill_separated, sameImports,
    flatten_undocumented, List.map_append, List.map_append]
  refine .intercalate (List.rel_append ?_ (sameCode_map value fun part _ =>
    part.sameCode_ownTemplate value))
  split
  · exact .nil
  · refine .cons (.refl ?_) .nil
    simpa [Piece.fill, EndsLine] using Fragment.getLast?_charsAll .standard 0 root.importFragments

/-! ## The code of services -/

def ResolvedRpc.undocumented (resolved : ResolvedRpc) : ResolvedRpc :=
  { resolved with
    rpc := resolved.rpc.undocumented
    request := resolved.request.undocumented
    response := resolved.response.undocumented }

namespace KnownTypes

variable (known : KnownTypes) (service : Service)

theorem messageRecord_undocumented (rpc : Rpc) (type : TypeName) :
    EndAlike (fun head plain => plain = head.undocumented) (known.messageRecord service rpc type)
      (known.undocumented.messageRecord service.undocumented rpc.undocumented type) := by
  rw [messageRecord, messageRecord, find?_undocumented]
  cases known.find? type with
  | none => exact .error _
  | some declaration =>
    cases declaration with
    | record head nested => exact .ok rfl
    | enumeration body => exact .error _
    | service body => exact .error _

theorem resolveRpc_undocumented (rpc : Rpc) :
    EndAlike (fun resolved plain => plain = resolved.undocumented) (known.resolveRpc service rpc)
      (known.undocumented.resolveRpc service.undocumented rpc.undocumented) := by
  have message := known.messageRecord_undocumented service rpc
  refine (message rpc.requestType).bind fun {request _} same => ?_
  subst same
  refine (message rpc.responseType).bind fun {response _} same => ?_
  subst same
  refine (EndAlike.refl request.type.className).bind fun {requestName _} same => ?_
  subst same
  refine (EndAlike.refl response.type.className).bind fun {responseName _} same => ?_
  subst same
  exact .ok rfl

end KnownTypes

namespace ResolvedRpc

variable (resolved : ResolvedRpc)

@[simp] theorem hasPayload_undocumented :
    resolved.undocumented.hasPayload = resolved.hasPayload := by
  simp [hasPayload, undocumented]

@[simp] theorem mentioned_undocumented : resolved.undocumented.mentioned = resolved.mentioned := by
  rw [mentioned, mentioned, hasPayload_undocumented]
  rfl

theorem method_undocumented (service : Service) :
    resolved.undocumented.method service.undocumented =
      { resolved.method service with doc := [] } := by
  simp only [method, hasPayload_undocumented]
  rfl

theorem sameCode_method (service : Service) :
    SameCode (Fragment.charsAll .standard 1 (resolved.method service).fragments)
      (Fragment.charsAll .standard 1
        (resolved.undocumented.method service.undocumented).fragments) := by
  have sameSignature : Method.signature { resolved.method service with doc := [] } =
      (resolved.method service).signature := by
    rw [Method.signature, Method.signature]
  rw [method_undocumented, Method.fragments, Method.fragments, Fragment.charsAll_append,
    Fragment.comments_nil, List.nil_append, sameSignature]
  exact Fragment.sameCode_commented .standard 1 resolved.rpc.documentation
    (.refl (Fragment.getLast?_charsAll _ _ _))

end ResolvedRpc

theorem Service.imports_undocumented (service : Service) (rpcs : List ResolvedRpc) :
    service.undocumented.imports (rpcs.map ResolvedRpc.undocumented) = service.imports rpcs := by
  have payloads : (rpcs.map ResolvedRpc.undocumented).any ResolvedRpc.hasPayload =
      rpcs.any ResolvedRpc.hasPayload := by
    simp [List.any_map, Function.comp_def]
  have types : (rpcs.map ResolvedRpc.undocumented).flatMap ResolvedRpc.mentioned =
      rpcs.flatMap ResolvedRpc.mentioned := by
    simp [List.flatMap_map]
  rw [imports, imports, payloads, types, List.isEmpty_map]
  rfl

theorem TypeScript.Class.sameCode_fragments {name documentation : String} {exported : ClassExport}
    {sections plain : List (List Fragment)}
    (nonempty : ∀ part ∈ sections, part ≠ []) (plainNonempty : ∀ part ∈ plain, part ≠ [])
    (same : List.Forall₂ (fun part other => SameCode (Fragment.charsAll .standard 1 part)
      (Fragment.charsAll .standard 1 other)) sections plain) :
    SameCode
      (Fragment.charsAll .standard 0 (fragments ⟨name, exported, docLines documentation, sections⟩))
      (Fragment.charsAll .standard 0 (fragments ⟨name, exported, [], plain⟩)) := by
  have kept : ∀ parts : List (List Fragment), (∀ part ∈ parts, part ≠ []) →
      parts.filter (fun part => !part.isEmpty) = parts := fun parts nonempty =>
    List.filter_eq_self.mpr fun part member => by simpa using nonempty part member
  have inside : SameCode (Fragment.charsAll .standard 1 (separated sections))
      (Fragment.charsAll .standard 1 (separated plain)) := by
    rw [Fragment.charsAll_separated, Fragment.charsAll_separated]
    exact .intercalate (List.forall₂_map_left_iff.mpr (List.forall₂_map_right_iff.mpr same))
  have sameHeader : header ⟨name, exported, [], plain⟩ =
      header ⟨name, exported, docLines documentation, sections⟩ := by
    rw [header, header]
  rw [fragments, fragments, Fragment.charsAll_append, Fragment.comments_nil, List.nil_append,
    sameHeader]
  dsimp only
  rw [kept sections nonempty, kept plain plainNonempty]
  refine Fragment.sameCode_commented .standard 0 documentation ?_
  cases same with
  | nil => exact .refl (Fragment.getLast?_charsAll _ _ _)
  | cons _ _ => exact Fragment.sameCode_braced _ inside

theorem Service.sections_ne_nil (service : Service) (rpcs : List ResolvedRpc) :
    ∀ part ∈ (service.clientClass rpcs).sections, part ≠ [] := by
  refine List.forall_mem_cons.mpr ⟨List.cons_ne_nil _ _,
    List.forall_mem_cons.mpr ⟨Constructor.fragments_ne_nil _, fun part method => ?_⟩⟩
  obtain ⟨resolved, -, rfl⟩ := List.mem_map.mp method
  simp [Method.fragments]

theorem Service.sameCode_clientClass (service : Service) (rpcs : List ResolvedRpc) :
    SameCode (Fragment.charsAll .standard 0 (service.clientClass rpcs).fragments)
      (Fragment.charsAll .standard 0
        (service.undocumented.clientClass (rpcs.map ResolvedRpc.undocumented)).fragments) := by
  refine Class.sameCode_fragments (service.sections_ne_nil rpcs)
    (service.undocumented.sections_ne_nil (rpcs.map ResolvedRpc.undocumented)) ?_
  refine .cons (.refl (Fragment.getLast?_charsAll _ _ _))
    (.cons (.refl (Fragment.getLast?_charsAll _ _ _)) ?_)
  rw [List.map_map, List.forall₂_map_left_iff, List.forall₂_map_right_iff]
  exact List.forall₂_same.mpr fun resolved _ => resolved.sameCode_method service

theorem TypeScript.Module.endsLine_render (item : Module) :
    EndsLine item.render.toList := by
  rw [render_toList]
  exact Fragment.getLast?_charsAll _ _ _

theorem TypeScript.Module.sameCode_render {imports : List Import} {sortImports : Bool}
    {declaration plain : List Fragment}
    (same : SameCode (Fragment.charsAll .standard 0 declaration)
      (Fragment.charsAll .standard 0 plain)) :
    SameCode (render ⟨imports, sortImports, [declaration]⟩).toList
      (render ⟨imports, sortImports, [plain]⟩).toList := by
  rw [render_toList, render_toList, fragments, fragments, Fragment.charsAll_separated,
    Fragment.charsAll_separated, List.map_append, List.map_append]
  refine .intercalate (List.rel_append ?_ (.cons same .nil))
  rw [List.forall₂_map_left_iff, List.forall₂_map_right_iff]
  exact List.forall₂_same.mpr fun part _ => .refl (Fragment.getLast?_charsAll _ _ _)

/-- Without documentation, the module of a service can be generated if it can be with it, and has
the same code. -/
theorem KnownTypes.serviceModule_undocumented (known : KnownTypes) (service : Service) :
    EndAlike (fun item plain => SameCode item.render.toList plain.render.toList)
      (known.serviceModule service) (known.undocumented.serviceModule service.undocumented) := by
  have resolves := EndAlike.mapM fun rpc (_ : rpc ∈ service.rpcs) =>
    known.resolveRpc_undocumented service rpc
  refine resolves.bind fun {rpcs others} same => ?_
  have same : rpcs.map ResolvedRpc.undocumented = others := by
    have same := List.forall₂_map_left_iff.mpr (same.imp fun _ _ equal => equal.symm)
    rwa [List.forall₂_eq_eq_eq] at same
  rw [← same, Service.imports_undocumented]
  refine (EndAlike.refl (service.imports rpcs)).bind fun {imports _} same => ?_
  rw [← same]
  exact .ok (Module.sameCode_render (service.sameCode_clientClass rpcs))

end Typescribe
