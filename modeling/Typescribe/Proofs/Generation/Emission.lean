import Mathlib.Data.List.TakeWhile
import Typescribe.Generation.TypeModule
import Typescribe.Proofs.Generation.KnownTypes
import Typescribe.Proofs.Traversal

/-!
# When modules can be written

The module of a type can be written exactly if every field below it can: its type has a class name
and is not known to be a service. The module of a service can be written exactly if its procedures
send and receive known records. Every failure to write a module is blamed on the schema.
-/

namespace Typescribe

open TypeScript

namespace KnownTypes

variable {known : KnownTypes}

/-- A field of the type can be written. -/
def Admits (known : KnownTypes) (type : TypeName) : Prop :=
  (∃ name, type.className = .ok name) ∧
    (type.isScalar = true ∨ ∀ body, known.find? type ≠ some (.service body))

theorem exists_fieldType_iff {type : TypeName} {repeated : Bool} :
    (∃ text, type.fieldType repeated = .ok text) ↔ ∃ name, type.className = .ok name := by
  rw [TypeName.fieldType]
  cases type.className <;> simp

theorem exists_decorator_iff {type : TypeName} (named : ∃ name, type.className = .ok name) :
    (∃ decorator, known.decorator type = .ok decorator) ↔
      type.isScalar = true ∨ ∀ body, known.find? type ≠ some (.service body) := by
  obtain ⟨name, called⟩ := named
  rw [decorator]
  cases type.isScalar with
  | true => simp
  | false =>
    rw [called]
    cases known.find? type with
    | none => simp
    | some declaration => cases declaration <;> simp

/-- A property is written with the type of its field and what stands before it. -/
theorem property_eq_ok {inGroup : Bool} {field : Field} {item : Property} :
    known.property inGroup field = .ok item ↔
      ∃ type decorator, field.type.fieldType field.isRepeated = .ok type ∧
        known.decorator field.type = .ok decorator ∧
        item = {
          name := field.memberName
          type := type
          isOptional := inGroup || field.cardinality == .optional
          initializer := field.initializer? (inGroup || field.cardinality == .optional)
          doc := Text.docLines field.documentation
          decorator := decorator } := by
  rw [property]
  cases field.type.fieldType field.isRepeated with
  | error reason => simp
  | ok type =>
    cases known.decorator field.type with
    | error reason => simp
    | ok decorator => simp [eq_comm]

theorem exists_property_iff {inGroup : Bool} {field : Field} :
    (∃ item, known.property inGroup field = .ok item) ↔ known.Admits field.type := by
  simp only [property_eq_ok, Admits]
  constructor
  · rintro ⟨item, type, decorator, typed, decorated, -⟩
    have named := exists_fieldType_iff.mp ⟨type, typed⟩
    exact ⟨named, (exists_decorator_iff named).mp ⟨decorator, decorated⟩⟩
  · rintro ⟨named, noService⟩
    obtain ⟨type, typed⟩ : ∃ type, field.type.fieldType field.isRepeated = .ok type :=
      exists_fieldType_iff.mpr named
    obtain ⟨decorator, decorated⟩ := (exists_decorator_iff named).mpr noService
    exact ⟨_, type, decorator, typed, decorated, rfl⟩

theorem exists_propertyFragments_iff {inGroup : Bool} {fields : List Field} :
    (∃ layout, known.propertyFragments inGroup fields = .ok layout) ↔
      ∀ field ∈ fields, known.Admits field.type := by
  rw [propertyFragments, exists_bind_pure, exists_mapM_eq_ok]
  simp only [exists_property_iff]

theorem exists_groupFragments_iff {group : OneOf} :
    (∃ layout, known.groupFragments group = .ok layout) ↔
      ∀ field ∈ group.fields, known.Admits field.type := by
  rw [groupFragments, exists_bind_pure, exists_propertyFragments_iff]

theorem exists_memberFragments_iff {record : Record} :
    (∃ layout, known.memberFragments record = .ok layout) ↔
      ∀ field ∈ record.allFields, known.Admits field.type := by
  simp only [memberFragments, bind_eq_ok, pure_eq_ok, Record.allFields, List.forall_mem_append,
    List.forall_mem_flatMap]
  constructor
  · rintro ⟨-, fields, fieldsDone, groups, groupsDone, -⟩
    refine ⟨exists_propertyFragments_iff.mp ⟨fields, fieldsDone⟩, fun group listed => ?_⟩
    exact exists_groupFragments_iff.mp (exists_mapM_eq_ok.mp ⟨groups, groupsDone⟩ group listed)
  · rintro ⟨fieldsAdmitted, groupsAdmitted⟩
    obtain ⟨fields, fieldsDone⟩ : ∃ layout, known.propertyFragments false record.fields =
        .ok layout := exists_propertyFragments_iff.mpr fieldsAdmitted
    obtain ⟨groups, groupsDone⟩ := exists_mapM_eq_ok.mpr fun group listed =>
      exists_groupFragments_iff.mpr (groupsAdmitted group listed)
    exact ⟨_, fields, fieldsDone, groups, groupsDone, rfl⟩

/-- A constructor can be written if every field's type has a class name. -/
theorem exists_constructor {record : Record}
    (named : ∀ field ∈ record.allFields, ∃ name, field.type.className = .ok name)
    (className : String) : ∃ method, record.constructor? className = .ok method := by
  rw [Record.constructor?]
  split
  · exact ⟨none, rfl⟩
  · rw [exists_bind_pure, exists_mapM_eq_ok]
    intro field required
    have listed : field ∈ record.allFields :=
      List.mem_append_left _ (List.mem_of_mem_filter required)
    rw [Record.param, exists_bind_pure]
    exact exists_fieldType_iff.mpr (named field listed)

theorem exists_recordClass_iff {record : Record} :
    (∃ item, known.recordClass record = .ok item) ↔
      (∃ name, record.type.className = .ok name) ∧
        ∀ field ∈ record.allFields, known.Admits field.type := by
  simp only [recordClass, bind_eq_ok, pure_eq_ok]
  constructor
  · rintro ⟨-, name, named, members, membersDone, -⟩
    exact ⟨⟨name, named⟩, exists_memberFragments_iff.mp ⟨members, membersDone⟩⟩
  · rintro ⟨⟨name, named⟩, admitted⟩
    obtain ⟨members, membersDone⟩ := exists_memberFragments_iff.mpr admitted
    obtain ⟨method, methodDone⟩ :=
      exists_constructor (fun field listed => (admitted field listed).1) name
    exact ⟨_, name, named, members, membersDone, method, methodDone, rfl⟩

/-- A declaration can be written if it is no service, has a class name, and its fields can be
written. -/
theorem exists_declarationFragments_iff {declaration : Declaration} :
    (∃ layout, known.declarationFragments declaration = .ok layout) ↔
      declaration.isService = false ∧ (∃ name, declaration.type.className = .ok name) ∧
        ∀ field ∈ declaration.ownFields, known.Admits field.type := by
  cases declaration with
  | record head nested =>
    rw [declarationFragments, exists_bind_pure, exists_recordClass_iff]
    simp [Declaration.isService, Declaration.type, Declaration.ownFields]
  | enumeration body =>
    rw [declarationFragments, exists_bind_pure, Enumeration.declaration, exists_bind_pure]
    simp [Declaration.isService, Declaration.type, Declaration.ownFields]
  | service body => simp [declarationFragments, Declaration.isService]

end KnownTypes

namespace TypeName

/-- A type that is no native one can be imported if it has a class name. -/
theorem exists_importInto {source destination : TypeName}
    (imported : destination.needsImport = true)
    (named : ∃ name, destination.className = .ok name) :
    ∃ item, importInto source destination = .ok item := by
  rw [needsImport, isNative, Bool.and_eq_true, Bool.not_eq_true', Bool.not_eq_true',
    Bool.or_eq_false_iff] at imported
  have names := ((className_isOk_iff destination).mp named).2 imported.2.1
  obtain ⟨name, called⟩ := named
  rw [importInto, moduleSpecifier, called]
  cases parts : destination.names with
  | nil => exact absurd parts names
  | cons outermost inner =>
    dsimp only
    split
    · exact ⟨_, rfl⟩
    · exact ⟨_, rfl⟩

end TypeName

/-- The imports of a type's module can be written if everything it refers to has a class name. -/
theorem Declaration.exists_imports {declaration : Declaration}
    (named : ∀ type ∈ declaration.referencedTypes, ∃ name, type.className = .ok name) :
    ∃ imports, declaration.imports = .ok imports := by
  rw [imports]
  split
  · exact ⟨[], rfl⟩
  · rw [exists_bind_pure, exists_mapM_eq_ok]
    intro type listed
    rw [List.mem_filter, Bool.and_eq_true] at listed
    exact TypeName.exists_importInto listed.2.1 (named type listed.1)

theorem TypeName.needsImport_iff {type : TypeName} :
    type.needsImport = true ↔ type.isWellKnown = false ∧ type.isNative = false := by
  rw [needsImport, Bool.and_eq_true, Bool.not_eq_true', Bool.not_eq_true']

/-- A type's module imports the decorator if the type refers to anything, and each referenced type
that needs an import and is declared elsewhere. -/
theorem Declaration.mem_imports_iff {declaration : Declaration} {imports : List Import}
    (done : declaration.imports = .ok imports) {entry : Import} :
    entry ∈ imports ↔
      declaration.referencedTypes ≠ [] ∧
          entry = { source := "class-transformer", named := ["Type"] } ∨
        ∃ type ∈ declaration.referencedTypes,
          (type.needsImport = true ∧ type.root ≠ declaration.type.root) ∧
            declaration.type.importInto type = .ok entry := by
  rw [Declaration.imports] at done
  split at done
  next empty =>
    obtain rfl := Except.ok.inj done
    simp [empty]
  next nonempty =>
    obtain ⟨elsewhere, imported, rest⟩ := bind_eq_ok.mp done
    obtain rfl := pure_eq_ok.mp rest
    rw [List.mem_cons, mem_mapM_iff imported]
    simp only [List.mem_filter, Bool.and_eq_true, bne_iff_ne, and_assoc]
    exact or_congr_left (iff_and_self.mpr fun _ => nonempty)

/-- A service's module imports the network client, the runtime if there are procedures, and each
type that the methods mention and that needs an import. -/
theorem Service.mem_imports_iff {service : Service} {rpcs : List ResolvedRpc}
    {imports : List Import} (done : service.imports rpcs = .ok imports) {entry : Import} :
    entry ∈ imports ↔
      entry = { source := "./" ++ clientType, defaultName := some clientType } ∨
      rpcs ≠ [] ∧ entry =
        { source := "class-transformer"
          named := "plainToClass" ::
            if rpcs.any ResolvedRpc.hasPayload then ["serialize"] else [] } ∨
      ∃ resolved ∈ rpcs, ∃ type ∈ resolved.mentioned,
        type.needsImport = true ∧ service.type.importInto type = .ok entry := by
  rw [Service.imports] at done
  split at done
  next empty =>
    obtain rfl := Except.ok.inj done
    simp [List.isEmpty_iff.mp empty]
  next nonempty =>
    rw [List.isEmpty_iff] at nonempty
    obtain ⟨messages, imported, rest⟩ := bind_eq_ok.mp done
    obtain rfl := pure_eq_ok.mp rest
    rw [List.mem_cons, List.mem_cons, mem_mapM_iff imported]
    simp only [List.mem_filter, List.mem_flatMap, nonempty, ne_eq, not_false_eq_true, true_and]
    refine or_congr_right (or_congr_right ?_)
    constructor
    · rintro ⟨type, ⟨⟨resolved, listed, mentioned⟩, needed⟩, made⟩
      exact ⟨resolved, listed, type, mentioned, needed, made⟩
    · rintro ⟨resolved, listed, type, mentioned, needed, made⟩
      exact ⟨type, ⟨⟨resolved, listed, mentioned⟩, needed⟩, made⟩

/-- A method mentions its response, and its request if that has anything to send. -/
theorem ResolvedRpc.mem_mentioned {resolved : ResolvedRpc} {type : TypeName} :
    type ∈ resolved.mentioned ↔
      type = resolved.request.type ∧ 0 < resolved.request.fieldCount ∨
        type = resolved.response.type := by
  rw [mentioned, List.mem_append, List.mem_singleton, List.mem_ite_nil_right, List.mem_singleton,
    hasPayload, decide_eq_true_eq, and_comm]

namespace KnownTypes

variable {known : KnownTypes}

/-- The module of a type can be written exactly if everything that it declares can. -/
theorem exists_typeModule_iff {declaration : Declaration} :
    (∃ item, known.typeModule declaration = .ok item) ↔
      ∀ part ∈ declaration.flatten,
        part.isService = false ∧ (∃ name, part.type.className = .ok name) ∧
          ∀ field ∈ part.ownFields, known.Admits field.type := by
  simp only [← exists_declarationFragments_iff, ← exists_mapM_eq_ok, typeModule, bind_eq_ok,
    pure_eq_ok]
  constructor
  · rintro ⟨-, layouts, done, -⟩
    exact ⟨layouts, done⟩
  · rintro ⟨layouts, done⟩
    have named : ∀ type ∈ declaration.referencedTypes, ∃ name, type.className = .ok name := by
      intro type referenced
      rw [Declaration.referencedTypes_eq, List.mem_flatMap] at referenced
      obtain ⟨part, inside, referenced⟩ := referenced
      obtain ⟨field, listed, rfl⟩ := List.mem_map.mp (List.mem_of_mem_filter referenced)
      have written := exists_mapM_eq_ok.mp ⟨layouts, done⟩ part inside
      exact ((exists_declarationFragments_iff.mp written).2.2 field listed).1
    obtain ⟨imports, imported⟩ := Declaration.exists_imports named
    exact ⟨_, layouts, done, imports, imported, rfl⟩

/-- Writing the class of a record leaves a placeholder for each reference to an unknown type. -/
theorem placeholders_eq {record : Record} (written : ∃ item, known.recordClass record = .ok item) :
    known.placeholders record = record.referencedTypes.filter fun type => !known.contains type := by
  obtain ⟨⟨name, named⟩, admitted⟩ := exists_recordClass_iff.mp written
  have all : (record.allFields.takeWhile fun field => (known.property false field).isOk) =
      record.allFields := by
    rw [List.takeWhile_eq_self_iff]
    intro field listed
    obtain ⟨item, done⟩ : ∃ item, known.property false field = .ok item :=
      exists_property_iff.mpr (admitted field listed)
    rw [done]
    rfl
  rw [placeholders, named]
  dsimp only
  rw [all, Record.referencedTypes, List.filter_filter]
  apply List.filter_congr
  intro type _
  rw [Bool.and_comm]

/-- Writing declarations leaves a placeholder for each reference to an unknown type, under the
type that declares the field. -/
theorem placeholdersOf_eq {declarations : List Declaration}
    (written : ∀ declaration ∈ declarations,
      ∃ layout, known.declarationFragments declaration = .ok layout) :
    known.placeholdersOf declarations = declarations.flatMap fun declaration =>
      (declaration.ownReferences.filter fun type => !known.contains type).map
        fun type => (declaration.type, type) := by
  induction declarations with
  | nil => rfl
  | cons declaration rest ih =>
    obtain ⟨⟨layout, done⟩, restWritten⟩ := List.forall_mem_cons.mp written
    have continued : (known.declarationFragments declaration).isOk = true := by
      rw [done]
      rfl
    cases declaration with
    | record head nested =>
      obtain ⟨item, made, -⟩ := bind_eq_ok.mp done
      rw [placeholdersOf, placeholders_eq ⟨item, made⟩, if_pos continued, ih restWritten]
      rfl
    | enumeration body =>
      rw [placeholdersOf, if_pos continued, ih restWritten]
      · rfl
      · simp
    | service body =>
      rw [placeholdersOf, if_pos continued, ih restWritten]
      · rfl
      · simp

/-- The type is known to be a record, which procedures can send and receive. -/
def Carries (known : KnownTypes) (type : TypeName) : Prop :=
  ∃ head nested, known.find? type = some (.record head nested)

theorem messageRecord_eq_ok {service : Service} {rpc : Rpc} {type : TypeName} {head : Record} :
    known.messageRecord service rpc type = .ok head ↔
      ∃ nested, known.find? type = some (.record head nested) := by
  rw [messageRecord]
  cases known.find? type with
  | none => simp
  | some declaration => cases declaration <;> simp

/-- A found declaration declares the type that was looked for. -/
theorem type_of_find? {type : TypeName} {declaration : Declaration}
    (found : known.find? type = some declaration) : declaration.type = type := by
  simpa using List.find?_some found

/-- A procedure is resolved to the records that it sends and receives, under their class names. -/
theorem resolveRpc_eq_ok {service : Service} {rpc : Rpc} {resolved : ResolvedRpc} :
    known.resolveRpc service rpc = .ok resolved ↔
      resolved.rpc = rpc ∧
      (∃ nested, known.find? rpc.requestType = some (.record resolved.request nested)) ∧
      (∃ nested, known.find? rpc.responseType = some (.record resolved.response nested)) ∧
      rpc.requestType.className = .ok resolved.requestName ∧
      rpc.responseType.className = .ok resolved.responseName := by
  simp only [resolveRpc, bind_eq_ok, pure_eq_ok, messageRecord_eq_ok]
  constructor
  · rintro ⟨request, ⟨nested, found⟩, response, ⟨others, foundResponse⟩, requestName, named,
      responseName, namedResponse, rfl⟩
    rw [← type_of_find? found, ← type_of_find? foundResponse] at *
    exact ⟨rfl, ⟨nested, found⟩, ⟨others, foundResponse⟩, named, namedResponse⟩
  · rintro ⟨rfl, ⟨nested, found⟩, ⟨others, foundResponse⟩, named, namedResponse⟩
    refine ⟨_, ⟨nested, found⟩, _, ⟨others, foundResponse⟩, _, ?_, _, ?_, rfl⟩
    · rw [← named]
      exact congrArg _ (type_of_find? found)
    · rw [← namedResponse]
      exact congrArg _ (type_of_find? foundResponse)

/-- The records of a resolved procedure are of the types that the procedure names. -/
theorem types_of_resolveRpc {service : Service} {rpc : Rpc} {resolved : ResolvedRpc}
    (done : known.resolveRpc service rpc = .ok resolved) :
    resolved.request.type = rpc.requestType ∧ resolved.response.type = rpc.responseType := by
  obtain ⟨-, ⟨nested, found⟩, ⟨others, foundResponse⟩, -, -⟩ := resolveRpc_eq_ok.mp done
  exact ⟨type_of_find? found, type_of_find? foundResponse⟩

/-- Every type that the method of a procedure mentions is known to be a record. -/
theorem carries_of_mem_mentioned {service : Service} {rpc : Rpc} {resolved : ResolvedRpc}
    (done : known.resolveRpc service rpc = .ok resolved) {type : TypeName}
    (mentioned : type ∈ resolved.mentioned) : known.Carries type := by
  obtain ⟨-, ⟨nested, found⟩, ⟨others, foundResponse⟩, -, -⟩ := resolveRpc_eq_ok.mp done
  obtain ⟨request, response⟩ := types_of_resolveRpc done
  rcases ResolvedRpc.mem_mentioned.mp mentioned with ⟨rfl, -⟩ | rfl
  · exact ⟨_, nested, request ▸ found⟩
  · exact ⟨_, others, response ▸ foundResponse⟩

/-- The module of a service can be written exactly if its procedures send and receive records. -/
theorem exists_serviceModule_iff {service : Service}
    (named : ∀ type, known.contains type = true → ∃ name, type.className = .ok name) :
    (∃ item, known.serviceModule service = .ok item) ↔
      ∀ type ∈ service.rpcTypes, known.Carries type := by
  constructor
  · rintro ⟨item, done⟩ type listed
    obtain ⟨rpcs, resolved, -⟩ := bind_eq_ok.mp done
    obtain ⟨rpc, member, isType⟩ := List.mem_flatMap.mp listed
    obtain ⟨found, -, resolves⟩ := exists_mem_of_mapM resolved member
    obtain ⟨-, ⟨nested, request⟩, ⟨others, response⟩, -, -⟩ := resolveRpc_eq_ok.mp resolves
    rcases List.mem_pair.mp isType with rfl | rfl
    · exact ⟨_, nested, request⟩
    · exact ⟨_, others, response⟩
  · intro carried
    have resolvable : ∀ rpc ∈ service.rpcs, ∃ resolved,
        known.resolveRpc service rpc = .ok resolved := by
      intro rpc member
      have carriesBoth : known.Carries rpc.requestType ∧ known.Carries rpc.responseType :=
        ⟨carried _ (List.mem_flatMap.mpr ⟨rpc, member, by simp⟩),
          carried _ (List.mem_flatMap.mpr ⟨rpc, member, by simp⟩)⟩
      obtain ⟨⟨request, nested, found⟩, response, others, foundResponse⟩ := carriesBoth
      obtain ⟨requestName, called⟩ := named _ (contains_of_find?_eq_some found)
      obtain ⟨responseName, calledResponse⟩ := named _ (contains_of_find?_eq_some foundResponse)
      exact ⟨⟨rpc, request, response, requestName, responseName⟩, resolveRpc_eq_ok.mpr
        ⟨rfl, ⟨nested, found⟩, ⟨others, foundResponse⟩, called, calledResponse⟩⟩
    obtain ⟨rpcs, resolved⟩ := exists_mapM_eq_ok.mpr resolvable
    have importable : ∃ imports, service.imports rpcs = .ok imports := by
      rw [Service.imports]
      split
      · exact ⟨_, rfl⟩
      · rw [exists_bind_pure, exists_mapM_eq_ok]
        intro type listed
        obtain ⟨mentioned, imported⟩ := List.mem_filter.mp listed
        apply TypeName.exists_importInto imported
        obtain ⟨item, member, isType⟩ := List.mem_flatMap.mp mentioned
        obtain ⟨rpc, -, resolves⟩ := exists_of_mem_mapM resolved member
        obtain ⟨request, response⟩ := types_of_resolveRpc resolves
        obtain ⟨-, -, -, called, calledResponse⟩ := resolveRpc_eq_ok.mp resolves
        rcases ResolvedRpc.mem_mentioned.mp isType with ⟨rfl, -⟩ | rfl
        · exact ⟨_, request ▸ called⟩
        · exact ⟨_, response ▸ calledResponse⟩
    obtain ⟨imports, imported⟩ := importable
    exact ⟨_, bind_eq_ok.mpr ⟨rpcs, resolved, bind_eq_ok.mpr ⟨imports, imported, rfl⟩⟩⟩

/-- A service's module stays as it is when more becomes known. -/
theorem serviceModule_of_find? {other : KnownTypes} {service : Service} {item : Module}
    (done : known.serviceModule service = .ok item)
    (kept : ∀ type declaration, known.find? type = some declaration →
      other.find? type = some declaration) :
    other.serviceModule service = .ok item := by
  obtain ⟨rpcs, resolved, rest⟩ := bind_eq_ok.mp done
  refine bind_eq_ok.mpr ⟨rpcs, ?_, rest⟩
  rw [mapM_eq_ok] at resolved ⊢
  refine resolved.imp ?_
  intro rpc result resolves
  obtain ⟨same, ⟨nested, found⟩, ⟨others, foundResponse⟩, names⟩ := resolveRpc_eq_ok.mp resolves
  exact resolveRpc_eq_ok.mpr
    ⟨same, ⟨nested, kept _ _ found⟩, ⟨others, kept _ _ foundResponse⟩, names⟩

end KnownTypes

/-- The module of a type of a well-formed schema can be written exactly if its fields can. -/
theorem WellFormed.exists_typeModule_iff {roots : List Declaration} {known : KnownTypes}
    {root : Declaration} (wellFormed : WellFormed roots) (member : root ∈ roots)
    (data : root.isService = false) :
    (∃ item, known.typeModule root = .ok item) ↔
      ∀ part ∈ root.flatten, ∀ field ∈ part.ownFields, known.Admits field.type := by
  rw [KnownTypes.exists_typeModule_iff]
  refine forall_congr' fun part => imp_congr_right fun inside => ?_
  have declared := Declaration.mem_flattenAll.mpr ⟨root, member, inside⟩
  have notService : part.isService = false := by
    rcases wellFormed.eq_or_encloses member inside with rfl | ⟨-, notService⟩
    · exact data
    · exact notService
  simp only [notService, wellFormed.className_eq declared, true_and]
  simp

/-- A placeholder can be replaced for a declaration that is no service. -/
theorem exists_replacement_iff {declaration : Declaration}
    (named : ∃ name, declaration.type.className = .ok name) :
    (∃ text, Placeholder.replacement declaration = .ok text) ↔ declaration.isService = false := by
  obtain ⟨name, called⟩ := named
  cases declaration with
  | record head nested =>
    rw [Declaration.type] at called
    simp [Placeholder.replacement, called, Declaration.isService]
  | enumeration body => simp [Placeholder.replacement, Declaration.isService]
  | service body => simp [Placeholder.replacement, Declaration.isService]

/-- Whether a failure is one of the schema and not of the files. -/
def GenerationError.isSchemaFault : GenerationError → Bool
  | missingOutputPath _ | read _ _ | write _ _ => false
  | _ => true

/-- Where the computation fails, the schema is at fault. -/
def BlamesSchema {α : Type} (result : Except GenerationError α) : Prop :=
  ∀ reason, result = .error reason → reason.isSchemaFault = true

namespace BlamesSchema

variable {α β : Type}

theorem ok (value : α) : BlamesSchema (.ok value) :=
  fun _ impossible => by cases impossible

theorem error {reason : GenerationError} (schemaFault : reason.isSchemaFault = true) :
    BlamesSchema (.error reason : Except GenerationError α) := by
  intro other same
  exact Except.error.inj same ▸ schemaFault

theorem bind {first : Except GenerationError α} {next : α → Except GenerationError β}
    (head : BlamesSchema first) (tail : ∀ value, BlamesSchema (next value)) :
    BlamesSchema (first >>= next) := by
  intro reason failed
  rcases bind_eq_error.mp failed with failed | ⟨value, -, failed⟩
  · exact head reason failed
  · exact tail value reason failed

theorem mapM {step : α → Except GenerationError β} (each : ∀ item, BlamesSchema (step item))
    (items : List α) : BlamesSchema (items.mapM step) := by
  intro reason failed
  obtain ⟨item, -, fails⟩ := exists_error_of_mapM failed
  exact each item reason fails

theorem className (type : TypeName) : BlamesSchema type.className := by
  rw [TypeName.className]
  split
  · split
    · exact ok _
    · exact error rfl
  · split
    · exact ok _
    · split
      · exact error rfl
      · exact ok _

theorem fieldType (type : TypeName) (repeated : Bool) : BlamesSchema (type.fieldType repeated) := by
  rw [TypeName.fieldType]
  split
  · exact ok _
  next reason failed => exact error (className type reason failed)

theorem decorator (known : KnownTypes) (type : TypeName) : BlamesSchema (known.decorator type) := by
  rw [KnownTypes.decorator]
  split
  · exact ok _
  · split
    · split
      · exact ok _
      next reason failed => exact error (className type reason failed)
    · exact ok _
    · exact error rfl
    · exact ok _

theorem property (known : KnownTypes) (inGroup : Bool) (field : Field) :
    BlamesSchema (known.property inGroup field) := by
  rw [KnownTypes.property]
  split
  next reason failed => exact error (fieldType _ _ reason failed)
  · split
    next reason failed => exact error (decorator _ _ reason failed)
    · exact ok _

theorem propertyFragments (known : KnownTypes) (inGroup : Bool) (fields : List Field) :
    BlamesSchema (known.propertyFragments inGroup fields) :=
  (mapM (property known inGroup) fields).bind fun _ => ok _

theorem recordClass (known : KnownTypes) (record : Record) :
    BlamesSchema (known.recordClass record) := by
  have group (item : OneOf) : BlamesSchema (known.groupFragments item) :=
    (propertyFragments known true item.fields).bind fun _ => ok _
  have members : BlamesSchema (known.memberFragments record) :=
    (propertyFragments known false record.fields).bind fun _ =>
      (mapM group record.oneOfs).bind fun _ => ok _
  have param (field : Field) : BlamesSchema (Record.param field) :=
    (fieldType field.type false).bind fun _ => ok _
  have method (name : String) : BlamesSchema (record.constructor? name) := by
    rw [Record.constructor?]
    split
    · exact ok _
    · exact (mapM param _).bind fun _ => ok _
  rw [KnownTypes.recordClass]
  exact (className record.type).bind fun name => members.bind fun _ =>
    (method name).bind fun _ => ok _

theorem declarationFragments (known : KnownTypes) (declaration : Declaration) :
    BlamesSchema (known.declarationFragments declaration) := by
  cases declaration with
  | record head nested => exact (recordClass known head).bind fun _ => ok _
  | enumeration body => exact ((className body.type).bind fun _ => ok _).bind fun _ => ok _
  | service body => exact error rfl

theorem importInto (source destination : TypeName) :
    BlamesSchema (source.importInto destination) := by
  rw [TypeName.importInto]
  split
  next reason failed =>
    rw [TypeName.moduleSpecifier] at failed
    split at failed
    · exact Except.error.inj failed ▸ error rfl
    · cases failed
  · split
    next reason failed => exact error (className _ reason failed)
    · split
      · exact ok _
      · exact ok _

/-- A type's module fails for faults of the schema alone. -/
theorem typeModule (known : KnownTypes) (declaration : Declaration) :
    BlamesSchema (known.typeModule declaration) := by
  have imports : BlamesSchema declaration.imports := by
    rw [Declaration.imports]
    split
    · exact ok _
    · exact (mapM (importInto declaration.type) _).bind fun _ => ok _
  exact (mapM (declarationFragments known) _).bind fun _ => imports.bind fun _ => ok _

/-- A service's module fails for faults of the schema alone. -/
theorem serviceModule (known : KnownTypes) (service : Service) :
    BlamesSchema (known.serviceModule service) := by
  have message (rpc : Rpc) (type : TypeName) :
      BlamesSchema (known.messageRecord service rpc type) := by
    rw [KnownTypes.messageRecord]
    split
    · exact ok _
    · exact error rfl
    · exact error rfl
  have rpc (item : Rpc) : BlamesSchema (known.resolveRpc service item) :=
    (message item item.requestType).bind fun _ => (message item item.responseType).bind fun _ =>
      (className _).bind fun _ => (className _).bind fun _ => ok _
  have imports (rpcs : List ResolvedRpc) : BlamesSchema (service.imports rpcs) := by
    rw [Service.imports]
    split
    · exact ok _
    · exact (mapM (importInto service.type) _).bind fun _ => ok _
  exact (mapM rpc _).bind fun rpcs => (imports rpcs).bind fun _ => ok _

theorem replacement (declaration : Declaration) :
    BlamesSchema (Placeholder.replacement declaration) := by
  cases declaration with
  | record head nested =>
    rw [Placeholder.replacement]
    split
    · exact ok _
    next reason failed => exact error (className _ reason failed)
  | enumeration body => exact ok _
  | service body => exact error rfl

end BlamesSchema

end Typescribe
