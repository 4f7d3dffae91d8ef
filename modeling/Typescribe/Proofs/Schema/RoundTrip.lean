import Typescribe.Proofs.Json.Variant
import Typescribe.Schema.Encoding
import Typescribe.Schema.FileDecoding

/-!
# Reading back what was encoded

A schema file is read back from the value that encodes it, whichever way the value is written. The
members of an object are read one after the other into a draft, and the draft is determined by what
it is read from and by the keys that were read so far; so neither their order matters nor, where
the value is a default, whether they are there.
-/

namespace Typescribe

namespace Decoding

open Json (Variant VariantItems Spells defaults)

/-! ## Drafts -/

/-- The value of a key, once the key has been read. -/
def given {β : Type} (done : List String) (key : String) (value : β) : Option β :=
  if key ∈ done then some value else none

section

variable {β : Type} {done : List String} {key : String} {value : β} {member : Json}

theorem given_cons (other : String) : given (other :: done) key value =
    if key = other then some value else given done key value := by
  rw [given, given]
  by_cases same : key = other
  · simp [same]
  · simp [same]

theorem once_given {item : Json → Result β} (absent : key ∉ done) (read : item member = .ok value) :
    once key (given done key value) item member = .ok (some value) := by
  rw [once, given, if_neg absent, read]
  rfl

theorem need_given (there : key ∈ done) : need key (given done key value) = .ok value := by
  rw [given, if_pos there]
  rfl

theorem getD_given {default : β} (there : key ∈ done ∨ value = default) :
    (given done key value).getD default = value := by
  rw [given]
  split
  · rfl
  next absent => exact (there.resolve_left absent).symm

end

/-- What is collected from members is told by their keys, if each is collected in its place. -/
theorem foldlM_draft {δ ι : Type} (put : δ → String × ι → Result δ) (draft : List String → δ)
    {members : List (String × ι)} (distinct : (members.map Prod.fst).Nodup)
    (step : ∀ done, ∀ member ∈ members, member.1 ∉ done →
      put (draft done) member = .ok (draft (member.1 :: done)))
    (done : List String) (fresh : ∀ member ∈ members, member.1 ∉ done) :
    ∃ read, members.foldlM put (draft done) = .ok (draft read) ∧
      ∀ key, key ∈ members.map Prod.fst ∨ key ∈ done → key ∈ read := by
  induction members generalizing done with
  | nil => exact ⟨done, rfl, fun key there => there.resolve_left List.not_mem_nil⟩
  | cons member rest ih =>
    obtain ⟨apart, distinctRest⟩ := List.nodup_cons.mp distinct
    obtain ⟨freshFirst, freshRest⟩ := List.forall_mem_cons.mp fresh
    have freshThen : ∀ other ∈ rest, other.1 ∉ member.1 :: done := by
      intro other listed repeated
      rcases List.mem_cons.mp repeated with same | early
      · exact apart (same ▸ List.mem_map_of_mem listed)
      · exact freshRest other listed early
    obtain ⟨read, collected, keys⟩ := ih distinctRest
      (fun done other listed => step done other (List.mem_cons_of_mem member listed))
      (member.1 :: done) freshThen
    refine ⟨read, ?_, fun key there => keys key ?_⟩
    · rw [List.foldlM_cons, step done member List.mem_cons_self freshFirst]
      exact collected
    · rwa [List.map_cons, List.mem_cons, or_right_comm, ← List.mem_cons, or_comm] at there

/-- An object is read in whatever way its members are written. -/
theorem Form.ofMembers_of_spells {δ α : Type} (form : Form δ α) (draft : List String → δ)
    {item : α} {members others : List (String × Json)} (spells : Spells members others)
    (start : form.start = draft [])
    (put : ∀ done key value other, key ∉ done → (key, value) ∈ members → (key, other) ∈ others →
      Variant value other → form.put (draft done) key other = .ok (draft (key :: done)))
    (finish : ∀ done, (∀ member ∈ members, member.1 ∈ done ∨ member ∈ defaults) →
      form.finish (draft done) = .ok item) : form.ofMembers others = .ok item := by
  obtain ⟨read, collected, keys⟩ := foldlM_draft
    (fun draft member => form.put draft member.1 member.2) draft spells.distinct
    (fun done other listed absent => by
      obtain ⟨value, member, variant⟩ := spells.each other listed
      exact put done other.1 value other.2 absent member listed variant)
    [] fun _ _ => List.not_mem_nil
  have finished := finish read fun member listed =>
    (spells.complete member listed).imp_left fun there => keys member.1 (.inl there)
  rw [Form.ofMembers, start, collected]
  show form.finishMembers _ = _
  rw [Form.finishMembers, finished]

/-! ## Single values -/

@[simp] theorem optionalText_eq_null_iff {value : Option String} :
    Encoding.optionalText value = .null ↔ value = none := by
  cases value with
  | none => simp [Encoding.optionalText]
  | some text => simp [Encoding.optionalText]

@[simp] theorem name_eq_required_iff {value : Cardinality} :
    value.name = "required" ↔ value = .required := by
  cases value
  all_goals simp [Cardinality.name]

section

variable {member : Json}

theorem text_of_variant {value : String} (variant : Variant (.string value) member) :
    text member = .ok value := by
  cases variant
  rfl

theorem typeName_of_variant {type : TypeName} (variant : Variant (.string type.text) member) :
    typeName member = .ok type := by
  cases variant
  rfl

theorem cardinality_of_variant {value : Cardinality}
    (variant : Variant (.string value.name) member) : cardinality member = .ok value := by
  cases variant
  cases value
  all_goals rfl

theorem optionalText_of_variant {value : Option String}
    (variant : Variant (Encoding.optionalText value) member) :
    optionalText member = .ok value := by
  cases value
  all_goals
    cases variant
    rfl

theorem mapM_of_variant {α : Type} {encode : α → Json} {decode : Json → Result α}
    (decodes : ∀ item value, Variant (encode item) value → decode value = .ok item)
    {items : List α} {values : List Json} (variant : VariantItems (items.map encode) values) :
    values.mapM decode = .ok items := by
  induction items generalizing values with
  | nil =>
    cases variant
    rfl
  | cons item rest ih =>
    cases variant with
    | @cons _ value _ others first later =>
      rw [List.mapM_cons, decodes item value first, ih later]
      rfl

theorem list_of_variant {α : Type} {encode : α → Json} {decode : Json → Result α} {items : List α}
    (decodes : ∀ item value, Variant (encode item) value → decode value = .ok item)
    (variant : Variant (.array (items.map encode)) member) : list decode member = .ok items := by
  cases variant with
  | array each => exact mapM_of_variant decodes each

end

/-! ## The objects of a schema -/

/-- A field as far as it has been read. -/
def FieldDraft.of (item : Field) (done : List String) : FieldDraft where
  name := given done "name" item.name
  jsonName := given done "json_name" item.jsonName
  type := given done "type" item.type
  cardinality := given done "cardinality" item.cardinality
  defaultValue := given done "default" item.defaultValue
  documentation := given done "documentation" item.documentation

theorem field_of_variant (item : Field) (value : Json)
    (variant : Variant (Encoding.field item) value) : field.ofJson value = .ok item := by
  obtain ⟨others, rfl, spells⟩ := variant.spells (by simp)
  refine field.ofMembers_of_spells (FieldDraft.of item) spells rfl ?_ ?_
  · intro done key value other absent listed _ variant
    simp only [List.mem_cons, Prod.mk.injEq, List.not_mem_nil, or_false] at listed
    rcases listed with ⟨rfl, rfl⟩ | ⟨rfl, rfl⟩ | ⟨rfl, rfl⟩ | ⟨rfl, rfl⟩ | ⟨rfl, rfl⟩ | ⟨rfl, rfl⟩
    · simp [field, FieldDraft.of, once_given absent (text_of_variant variant), given_cons]
    · simp [field, FieldDraft.of, once_given absent (optionalText_of_variant variant), given_cons]
    · simp [field, FieldDraft.of, once_given absent (typeName_of_variant variant), given_cons]
    · simp [field, FieldDraft.of, once_given absent (cardinality_of_variant variant), given_cons]
    · simp [field, FieldDraft.of, once_given absent (optionalText_of_variant variant), given_cons]
    · simp [field, FieldDraft.of, once_given absent (text_of_variant variant), given_cons]
  · intro done complete
    simp [defaults] at complete
    obtain ⟨name, jsonName, type, cardinality, defaultValue, documentation⟩ := complete
    simp [field, FieldDraft.of, need_given name, getD_given jsonName, need_given type,
      getD_given cardinality, getD_given defaultValue, getD_given documentation, bind, Except.bind,
      pure, Except.pure]

/-- A group as far as it has been read. -/
def OneOfDraft.of (item : OneOf) (done : List String) : OneOfDraft where
  name := given done "name" item.name
  documentation := given done "documentation" item.documentation
  fields := given done "fields" item.fields

theorem oneOf_of_variant (item : OneOf) (value : Json)
    (variant : Variant (Encoding.oneOf item) value) : oneOf.ofJson value = .ok item := by
  obtain ⟨others, rfl, spells⟩ := variant.spells (by simp)
  refine oneOf.ofMembers_of_spells (OneOfDraft.of item) spells rfl ?_ ?_
  · intro done key value other absent listed _ variant
    simp only [List.mem_cons, Prod.mk.injEq, List.not_mem_nil, or_false] at listed
    rcases listed with ⟨rfl, rfl⟩ | ⟨rfl, rfl⟩ | ⟨rfl, rfl⟩
    · simp [oneOf, OneOfDraft.of, once_given absent (text_of_variant variant), given_cons]
    · simp [oneOf, OneOfDraft.of, once_given absent (text_of_variant variant), given_cons]
    · simp [oneOf, OneOfDraft.of, once_given absent (list_of_variant field_of_variant variant),
        given_cons]
  · intro done complete
    simp [defaults] at complete
    obtain ⟨name, documentation, fields⟩ := complete
    simp [oneOf, OneOfDraft.of, need_given name, getD_given documentation, getD_given fields]

/-- A constant as far as it has been read. -/
def EnumConstantDraft.of (item : EnumConstant) (done : List String) : EnumConstantDraft where
  name := given done "name" item.name
  documentation := given done "documentation" item.documentation

theorem enumConstant_of_variant (item : EnumConstant) (value : Json)
    (variant : Variant (Encoding.enumConstant item) value) :
    enumConstant.ofJson value = .ok item := by
  obtain ⟨others, rfl, spells⟩ := variant.spells (by simp)
  refine enumConstant.ofMembers_of_spells (EnumConstantDraft.of item) spells rfl ?_ ?_
  · intro done key value other absent listed _ variant
    simp only [List.mem_cons, Prod.mk.injEq, List.not_mem_nil, or_false] at listed
    rcases listed with ⟨rfl, rfl⟩ | ⟨rfl, rfl⟩
    all_goals
      simp [enumConstant, EnumConstantDraft.of, once_given absent (text_of_variant variant),
        given_cons]
  · intro done complete
    simp [defaults] at complete
    obtain ⟨name, documentation⟩ := complete
    simp [enumConstant, EnumConstantDraft.of, need_given name, getD_given documentation]

/-- A procedure as far as it has been read. -/
def RpcDraft.of (item : Rpc) (done : List String) : RpcDraft where
  name := given done "name" item.name
  requestType := given done "request_type" item.requestType
  responseType := given done "response_type" item.responseType
  documentation := given done "documentation" item.documentation

theorem rpc_of_variant (item : Rpc) (value : Json)
    (variant : Variant (Encoding.rpc item) value) : rpc.ofJson value = .ok item := by
  obtain ⟨others, rfl, spells⟩ := variant.spells (by simp)
  refine rpc.ofMembers_of_spells (RpcDraft.of item) spells rfl ?_ ?_
  · intro done key value other absent listed _ variant
    simp only [List.mem_cons, Prod.mk.injEq, List.not_mem_nil, or_false] at listed
    rcases listed with ⟨rfl, rfl⟩ | ⟨rfl, rfl⟩ | ⟨rfl, rfl⟩ | ⟨rfl, rfl⟩
    · simp [rpc, RpcDraft.of, once_given absent (text_of_variant variant), given_cons]
    · simp [rpc, RpcDraft.of, once_given absent (typeName_of_variant variant), given_cons]
    · simp [rpc, RpcDraft.of, once_given absent (typeName_of_variant variant), given_cons]
    · simp [rpc, RpcDraft.of, once_given absent (text_of_variant variant), given_cons]
  · intro done complete
    simp [defaults] at complete
    obtain ⟨name, requestType, responseType, documentation⟩ := complete
    simp [rpc, RpcDraft.of, need_given name, need_given requestType, need_given responseType,
      getD_given documentation, bind, Except.bind, pure, Except.pure]

/-! ## Declarations -/

/-- The members of a declaration's encoding, its kind apart. -/
def bodyMembers : Declaration → List (String × Json)
  | .record head nested =>
    [("type", .string head.type.text), ("documentation", .string head.documentation),
      ("fields", .array (head.fields.map Encoding.field)),
      ("one_ofs", .array (head.oneOfs.map Encoding.oneOf)),
      ("nested", .array (Encoding.declarations nested))]
  | .enumeration body =>
    [("type", .string body.type.text), ("documentation", .string body.documentation),
      ("constants", .array (body.constants.map Encoding.enumConstant))]
  | .service body =>
    [("type", .string body.type.text), ("documentation", .string body.documentation),
      ("rpcs", .array (body.rpcs.map Encoding.rpc))]

theorem declaration_eq_object (item : Declaration) :
    Encoding.declaration item = .object (("kind", .string item.kind.name) :: bodyMembers item) := by
  cases item
  all_goals rfl

theorem declarations_eq_map (items : List Declaration) :
    Encoding.declarations items = items.map Encoding.declaration := by
  induction items with
  | nil => rfl
  | cons item rest ih => rw [Encoding.declarations, ih, List.map_cons]

theorem kindOfName_name (kind : DeclarationKind) : kindOfName kind.name = .ok kind := by
  cases kind
  all_goals rfl

/-- An enumeration as far as it has been read. -/
def EnumerationDraft.of (item : Enumeration) (done : List String) : EnumerationDraft where
  type := given done "type" item.type
  documentation := given done "documentation" item.documentation
  constants := given done "constants" item.constants

theorem enumeration_of_spells {item : Enumeration} {others : List (String × Json)}
    (spells : Spells (bodyMembers (.enumeration item)) others) :
    enumeration.ofMembers others = .ok item := by
  refine enumeration.ofMembers_of_spells (EnumerationDraft.of item) spells rfl ?_ ?_
  · intro done key value other absent listed _ variant
    simp only [bodyMembers, List.mem_cons, Prod.mk.injEq, List.not_mem_nil, or_false] at listed
    rcases listed with ⟨rfl, rfl⟩ | ⟨rfl, rfl⟩ | ⟨rfl, rfl⟩
    · simp [enumeration, EnumerationDraft.of, once_given absent (typeName_of_variant variant),
        given_cons]
    · simp [enumeration, EnumerationDraft.of, once_given absent (text_of_variant variant),
        given_cons]
    · simp [enumeration, EnumerationDraft.of,
        once_given absent (list_of_variant enumConstant_of_variant variant), given_cons]
  · intro done complete
    simp [bodyMembers, defaults] at complete
    obtain ⟨type, documentation, constants⟩ := complete
    simp [enumeration, EnumerationDraft.of, need_given type, getD_given documentation,
      getD_given constants]

/-- A service as far as it has been read. -/
def ServiceDraft.of (item : Service) (done : List String) : ServiceDraft where
  type := given done "type" item.type
  documentation := given done "documentation" item.documentation
  rpcs := given done "rpcs" item.rpcs

theorem service_of_spells {item : Service} {others : List (String × Json)}
    (spells : Spells (bodyMembers (.service item)) others) :
    service.ofMembers others = .ok item := by
  refine service.ofMembers_of_spells (ServiceDraft.of item) spells rfl ?_ ?_
  · intro done key value other absent listed _ variant
    simp only [bodyMembers, List.mem_cons, Prod.mk.injEq, List.not_mem_nil, or_false] at listed
    rcases listed with ⟨rfl, rfl⟩ | ⟨rfl, rfl⟩ | ⟨rfl, rfl⟩
    · simp [service, ServiceDraft.of, once_given absent (typeName_of_variant variant), given_cons]
    · simp [service, ServiceDraft.of, once_given absent (text_of_variant variant), given_cons]
    · simp [service, ServiceDraft.of, once_given absent (list_of_variant rpc_of_variant variant),
        given_cons]
  · intro done complete
    simp [bodyMembers, defaults] at complete
    obtain ⟨type, documentation, rpcs⟩ := complete
    simp [service, ServiceDraft.of, need_given type, getD_given documentation, getD_given rpcs]

/-- A record as far as it has been read. -/
def RecordDraft.of (head : Record) (nested : List Declaration) (done : List String) :
    RecordDraft where
  type := given done "type" head.type
  documentation := given done "documentation" head.documentation
  fields := given done "fields" head.fields
  oneOfs := given done "one_ofs" head.oneOfs
  nested := given done "nested" nested

/-- A record is read if what is nested in it is. -/
theorem record_of_spells {head : Record} {nested : List Declaration}
    {others : List (String × Json)} {decode : Json → Result Declaration}
    (spells : Spells (bodyMembers (.record head nested)) others)
    (decodes : ∀ values, ("nested", .array values) ∈ others →
      VariantItems (Encoding.declarations nested) values → values.mapM decode = .ok nested) :
    (record (list decode)).ofMembers others = .ok (.record head nested) := by
  refine (record (list decode)).ofMembers_of_spells (RecordDraft.of head nested) spells rfl ?_ ?_
  · intro done key value other absent listed there variant
    simp only [bodyMembers, List.mem_cons, Prod.mk.injEq, List.not_mem_nil, or_false] at listed
    rcases listed with ⟨rfl, rfl⟩ | ⟨rfl, rfl⟩ | ⟨rfl, rfl⟩ | ⟨rfl, rfl⟩ | ⟨rfl, rfl⟩
    · simp [record, RecordDraft.of, once_given absent (typeName_of_variant variant), given_cons]
    · simp [record, RecordDraft.of, once_given absent (text_of_variant variant), given_cons]
    · simp [record, RecordDraft.of, once_given absent (list_of_variant field_of_variant variant),
        given_cons]
    · simp [record, RecordDraft.of, once_given absent (list_of_variant oneOf_of_variant variant),
        given_cons]
    · have decoded : list decode other = .ok nested := by
        cases variant with
        | array each => exact decodes _ there each
      simp [record, RecordDraft.of, once_given absent decoded, given_cons]
  · intro done complete
    simp [bodyMembers, defaults, declarations_eq_map] at complete
    obtain ⟨type, documentation, fields, oneOfs, nested⟩ := complete
    simp [record, RecordDraft.of, need_given type, getD_given documentation, getD_given fields,
      getD_given oneOfs, getD_given nested]

/-- A declaration is read from its members if what is nested in it is. -/
theorem declarationOfMembers_of_spells {item : Declaration} {others : List (String × Json)}
    {decode : Json → Result Declaration} (spells : Spells (bodyMembers item) others)
    (decodes : ∀ values, ("nested", .array values) ∈ others →
      VariantItems (Encoding.declarations item.nestedTypes) values →
        values.mapM decode = .ok item.nestedTypes) :
    declarationOfMembers (list decode) item.kind others = .ok item := by
  cases item with
  | record head nested => exact record_of_spells spells decodes
  | enumeration body =>
    rw [Declaration.kind, declarationOfMembers, enumeration_of_spells spells]
    rfl
  | service body =>
    rw [Declaration.kind, declarationOfMembers, service_of_spells spells]
    rfl

/-- The kind is among the members of a declaration, and the rest are its body. -/
theorem exists_kind_of_spells {item : Declaration} {others : List (String × Json)}
    (spells : Spells (("kind", .string item.kind.name) :: bodyMembers item) others) :
    ∃ before after, others = before ++ ("kind", .string item.kind.name) :: after ∧
      (∀ other ∈ before ++ after, other.1 ≠ "kind") ∧
      Spells (bodyMembers item) (before ++ after) := by
  have elsewhere : ∀ member ∈ bodyMembers item, member.1 ≠ "kind" := by
    cases item
    all_goals simp [bodyMembers]
  have there : "kind" ∈ others.map Prod.fst :=
    (spells.complete _ List.mem_cons_self).resolve_right (by simp [defaults])
  obtain ⟨⟨key, value⟩, listed, rfl⟩ := List.mem_map.mp there
  have isKind : value = .string item.kind.name := by
    obtain ⟨encoded, member, variant⟩ := spells.each _ listed
    rcases List.mem_cons.mp member with same | inBody
    · rw [(Prod.mk.inj same).2] at variant
      cases variant
      rfl
    · exact absurd rfl (elsewhere _ inBody)
  subst isKind
  obtain ⟨before, after, rfl⟩ := List.append_of_mem listed
  have keys := spells.distinct
  rw [List.map_append, List.map_cons, List.nodup_middle, ← List.map_append, List.nodup_cons] at keys
  have apart : ∀ other ∈ before ++ after, other.1 ≠ "kind" := fun other member same =>
    keys.1 (List.mem_map.mpr ⟨other, member, same⟩)
  refine ⟨before, after, rfl, apart, keys.2, fun other member => ?_, fun member inBody => ?_⟩
  · have stays : other ∈ before ++ ("kind", .string item.kind.name) :: after := by
      rw [List.mem_append, List.mem_cons, or_left_comm, ← List.mem_append]
      exact .inr member
    obtain ⟨encoded, encodes, variant⟩ := spells.each other stays
    rcases List.mem_cons.mp encodes with same | inBody
    · exact absurd (Prod.mk.inj same).1 (apart other member)
    · exact ⟨encoded, inBody, variant⟩
  · refine (spells.complete member (List.mem_cons_of_mem _ inBody)).imp_left fun listed => ?_
    rw [List.map_append, List.map_cons, List.mem_append, List.mem_cons, or_left_comm,
      ← List.mem_append, ← List.map_append] at listed
    exact listed.resolve_left (elsewhere member inBody)

section

variable {before after : List (String × Json)} {item : Declaration}

theorem kindAmong_of_absent {members : List (String × Json)} {found : Option DeclarationKind}
    (absent : ∀ member ∈ members, member.1 ≠ "kind") : kindAmong found members = .ok found := by
  induction members with
  | nil => rfl
  | cons member rest ih =>
    obtain ⟨first, later⟩ := List.forall_mem_cons.mp absent
    rw [kindAmong, if_neg first, ih later]

theorem kindAmong_eq (absent : ∀ member ∈ before ++ after, member.1 ≠ "kind") :
    kindAmong none (before ++ ("kind", .string item.kind.name) :: after) =
      .ok (some item.kind) := by
  induction before with
  | nil =>
    rw [List.nil_append, kindAmong, if_pos rfl]
    show kindOfName _ >>= _ = _
    rw [kindOfName_name]
    exact kindAmong_of_absent absent
  | cons member rest ih =>
    obtain ⟨first, later⟩ := List.forall_mem_cons.mp absent
    rw [List.cons_append, kindAmong, if_neg first, ih later]

theorem splitKind_of_absent {members : List (String × Json)} {found : Option DeclarationKind}
    (absent : ∀ member ∈ members, member.1 ≠ "kind") :
    splitKind found (JsonTree.ofMembers members) = .ok (found, members) := by
  induction members with
  | nil => rfl
  | cons member rest ih =>
    obtain ⟨first, later⟩ := List.forall_mem_cons.mp absent
    rw [JsonTree.ofMembers, splitKind, if_neg first, JsonTree.value_ofJson, ih later]
    rfl

theorem splitKind_eq (absent : ∀ member ∈ before ++ after, member.1 ≠ "kind") :
    splitKind none (JsonTree.ofMembers (before ++ ("kind", .string item.kind.name) :: after)) =
      .ok (some item.kind, before ++ after) := by
  induction before with
  | nil =>
    rw [List.nil_append, JsonTree.ofMembers, splitKind, if_pos rfl]
    show kindOfName _ >>= _ = _
    rw [kindOfName_name]
    exact splitKind_of_absent absent
  | cons member rest ih =>
    obtain ⟨first, later⟩ := List.forall_mem_cons.mp absent
    rw [List.cons_append, JsonTree.ofMembers, splitKind, if_neg first, JsonTree.value_ofJson,
      ih later]
    rfl

/-- A member that adds nothing plays no part. -/
theorem Form.ofMembers_insert {δ α : Type} (form : Form δ α) {key : String} {value : Json}
    (ignored : ∀ draft, form.put draft key value = .ok draft) :
    form.ofMembers (before ++ (key, value) :: after) = form.ofMembers (before ++ after) := by
  rw [Form.ofMembers, Form.ofMembers, List.foldlM_append, List.foldlM_append]
  simp only [List.foldlM_cons, ignored]
  rfl

/-- The kind among the members of a declaration plays no part in its body. -/
theorem declarationOfMembers_insert_kind (nested : Json → Result (List Declaration))
    (kind : DeclarationKind) (value : Json) :
    declarationOfMembers nested kind (before ++ ("kind", value) :: after) =
      declarationOfMembers nested kind (before ++ after) := by
  cases kind with
  | record => exact (record nested).ofMembers_insert fun _ => rfl
  | enumeration =>
    rw [declarationOfMembers, declarationOfMembers, enumeration.ofMembers_insert fun _ => rfl]
  | service =>
    rw [declarationOfMembers, declarationOfMembers, service.ofMembers_insert fun _ => rfl]

end

/-- The members of a declaration's encoding have different keys. -/
theorem nodup_bodyMembers (item : Declaration) :
    ((("kind", Json.string item.kind.name) :: bodyMembers item).map Prod.fst).Nodup := by
  cases item
  all_goals simp [bodyMembers]

/-- Values inside an object are bounded in depth by the object. -/
theorem itemsDepth_lt_of_mem {members : List (String × Json)} {key : String} {values : List Json}
    (listed : (key, .array values) ∈ members) :
    Json.itemsDepth values < Json.membersDepth members := by
  have bounded := Json.depth_le_membersDepth listed
  rwa [Json.depth] at bounded

/-- What is nested in a declaration is read, given levels enough for its values. -/
def ReadsNested (item : Declaration) : Prop :=
  ∀ levels values, VariantItems (Encoding.declarations item.nestedTypes) values →
    Json.itemsDepth values ≤ levels → values.mapM (declaration levels) = .ok item.nestedTypes

/-- A nested declaration is read, given levels enough for its value, if what is nested in it is. -/
theorem ReadsNested.declaration {item : Declaration} (inner : ReadsNested item) {levels : Nat}
    {value : Json} (variant : Variant (Encoding.declaration item) value)
    (bounded : value.depth ≤ levels) : declaration levels value = .ok item := by
  rw [declaration_eq_object] at variant
  obtain ⟨others, rfl, spells⟩ := variant.spells (nodup_bodyMembers item)
  obtain ⟨before, after, rfl, absent, body⟩ := exists_kind_of_spells spells
  rw [Json.depth] at bounded
  cases levels with
  | zero => exact absurd bounded (Nat.not_succ_le_zero _)
  | succ levels =>
    have decoded : declarationOfMembers (list (Decoding.declaration levels)) item.kind
        (before ++ after) = .ok item := by
      refine declarationOfMembers_of_spells body fun values listed each => ?_
      have there : ("nested", .array values) ∈
          before ++ ("kind", .string item.kind.name) :: after := by
        rw [List.mem_append, List.mem_cons, or_left_comm, ← List.mem_append]
        exact .inr listed
      exact inner levels values each
        (Nat.le_of_lt (Nat.lt_of_lt_of_le (itemsDepth_lt_of_mem there)
          (Nat.le_of_succ_le_succ bounded)))
    rw [Decoding.declaration, kindAmong_eq absent]
    show declarationOfMembers _ _ _ = _
    rw [declarationOfMembers_insert_kind, decoded]

mutual

theorem readsNested (item : Declaration) : ReadsNested item := by
  cases item with
  | record head nested =>
    exact fun levels values variant bounded => declarations_of_variant nested variant bounded
  | enumeration body =>
    intro levels values variant bounded
    cases variant
    rfl
  | service body =>
    intro levels values variant bounded
    cases variant
    rfl

theorem declarations_of_variant (items : List Declaration) {levels : Nat} {values : List Json}
    (variant : VariantItems (Encoding.declarations items) values)
    (bounded : Json.itemsDepth values ≤ levels) :
    values.mapM (declaration levels) = .ok items := by
  cases items with
  | nil =>
    cases variant
    rfl
  | cons item rest =>
    cases variant with
    | @cons _ value _ others first later =>
      rw [Json.itemsDepth] at bounded
      have head := (readsNested item).declaration first
        (Nat.le_trans (Nat.le_max_left _ _) bounded)
      have tail := declarations_of_variant rest later
        (Nat.le_trans (Nat.le_max_right _ _) bounded)
      rw [List.mapM_cons, head, tail]
      rfl

end

/-! ## Files -/

/-- A top-level declaration is read. -/
theorem declarationOfTree_of_variant (item : Declaration) (value : Json)
    (variant : Variant (Encoding.declaration item) value) :
    declarationOfTree (JsonTree.ofJson value) = .ok item := by
  rw [declaration_eq_object] at variant
  obtain ⟨others, rfl, spells⟩ := variant.spells (nodup_bodyMembers item)
  obtain ⟨before, after, rfl, absent, body⟩ := exists_kind_of_spells spells
  have decoded : declarationOfMembers
      (list (declaration (Json.membersDepth (before ++ after)))) item.kind (before ++ after) =
        .ok item :=
    declarationOfMembers_of_spells body fun values listed each =>
      readsNested item _ values each (Nat.le_of_lt (itemsDepth_lt_of_mem listed))
  rw [JsonTree.ofJson, declarationOfTree, splitKind_eq absent]
  exact decoded

theorem declarationsOfTree_of_variant {items : List Declaration} {value : Json}
    (variant : Variant (.array (Encoding.declarations items)) value) :
    declarationsOfTree (JsonTree.ofJson value) = .ok items := by
  rw [declarations_eq_map] at variant
  cases variant with
  | @array _ values each =>
    have decoded : (values.map JsonTree.ofJson).mapM declarationOfTree = .ok items := by
      rw [List.mapM_map]
      exact mapM_of_variant declarationOfTree_of_variant each
    rw [JsonTree.ofJson, JsonTree.ofItems_eq_map, declarationsOfTree, decoded]
    rfl

/-- A file as far as it has been read. -/
def FileDraft.of (item : SchemaFile) (done : List String) : FileDraft where
  name := given done "name" item.name
  declarations := given done "declarations" item.declarations

theorem FileDraft.put_of_variant {item : SchemaFile} {done : List String} {key : String}
    {value other : Json} (absent : key ∉ done)
    (listed : (key, value) ∈ [("name", .string item.name),
      ("declarations", .array (Encoding.declarations item.declarations))])
    (variant : Variant value other) :
    (FileDraft.of item done).put key (JsonTree.ofJson other) =
      .ok (FileDraft.of item (key :: done)) := by
  simp only [List.mem_cons, Prod.mk.injEq, List.not_mem_nil, or_false] at listed
  rcases listed with ⟨rfl, rfl⟩ | ⟨rfl, rfl⟩
  · cases variant
    simp [FileDraft.put, FileDraft.of, given, absent, JsonTree.ofJson, textOfTree]
  · simp [FileDraft.put, FileDraft.of, given, absent, declarationsOfTree_of_variant variant]

theorem fileOfTree_of_variant {item : SchemaFile} {value : Json}
    (variant : Variant item.toJson value) : fileOfTree (JsonTree.ofJson value) = .ok item := by
  obtain ⟨others, rfl, spells⟩ := variant.spells (by simp)
  have keys : (JsonTree.ofMembers others).map Prod.fst = others.map Prod.fst := by
    rw [JsonTree.ofMembers_eq_map, List.map_map]
    rfl
  obtain ⟨read, collected, complete⟩ := foldlM_draft
    (fun draft member => FileDraft.put draft member.1 member.2) (FileDraft.of item)
    (keys ▸ spells.distinct)
    (fun done member listed absent => by
      rw [JsonTree.ofMembers_eq_map] at listed
      obtain ⟨other, there, rfl⟩ := List.mem_map.mp listed
      obtain ⟨encoded, encodes, variant⟩ := spells.each other there
      exact FileDraft.put_of_variant absent encodes variant)
    [] fun _ _ => List.not_mem_nil
  rw [keys] at complete
  have there := fun member listed =>
    (spells.complete member listed).imp_left fun there => complete member.1 (.inl there)
  simp [defaults, declarations_eq_map] at there
  obtain ⟨name, declarations⟩ := there
  have isNamed : (FileDraft.of item read).name = some item.name := if_pos name
  have isDeclared : (FileDraft.of item read).declarations.getD [] = item.declarations :=
    getD_given declarations
  rw [JsonTree.ofJson, fileOfTree, show List.foldlM _ ({} : FileDraft) _ = _ from collected]
  simp only [bind, Except.bind, isNamed, isDeclared]
  rfl

end Decoding

/-- A schema file is read back from the value that encodes it, and from every other way to write
that value: members may be left out of any of its objects if their values are defaults, and the
others may be in any order. -/
theorem SchemaFile.ofJson_of_variant (file : SchemaFile) :
    SchemaFile.ofJson file.toJson = .ok file ∧
      ∀ value, Json.Variant file.toJson value → SchemaFile.ofJson value = .ok file :=
  ⟨Decoding.fileOfTree_of_variant (.refl _), fun _ => Decoding.fileOfTree_of_variant⟩

/-- A group of a nested record, with all that can be left out left out. -/
example :
    let group : Json := .object [("name", .string "age")]
    let egg : Json := .object
      [("one_ofs", .array [group]), ("type", .string "dinos.Nest.Egg"), ("kind", .string "record")]
    let nest : Json := .object
      [("type", .string "dinos.Nest"), ("nested", .array [egg]), ("kind", .string "record")]
    SchemaFile.ofJson (.object [("declarations", .array [nest]), ("name", .string "nest")]) =
      .ok { name := "nest"
            declarations := [.record { type := ⟨"dinos.Nest"⟩ }
              [.record { type := ⟨"dinos.Nest.Egg"⟩, oneOfs := [{ name := "age" }] } []]] } := by
  rfl

end Typescribe
