import Mathlib.Data.List.Nodup
import Typescribe.Proofs.Generation.Constructors

/-!
# When classes bind each of their names once

Some names in a class are fixed: the callback of a record's constructor, and the network client and
the constructor of a service's class. All others are the names of fields and procedures, and no
name is changed to keep it apart from a fixed one. So the names are distinct exactly if no field
and no procedure takes a name that is fixed where it stands.
-/

namespace Typescribe

open TypeScript Text

namespace Text

/-- Whether a name is an identifier that starts with a capital. -/
def isCapitalIdentifier (name : String) : Bool :=
  isIdentifier name && name.toList.head?.any Char.isUpper

/-- The name in the line that a member of a class starts with. -/
def memberName (head : String) : String :=
  String.ofList
    (((head.toList.dropPrefix? "async ".toList).getD head.toList).takeWhile isIdentifierChar)

end Text

namespace Fragment

/-- The name of a member of a class, if the fragment is one. -/
def memberName? : Fragment → Option String
  | .line text => some (memberName text)
  | .block header _ _ => some (memberName header)
  | _ => none

/-- The names of the members of a class in its layout. -/
def memberNames : Fragment → List String
  | .block _ body _ => body.filterMap memberName?
  | _ => []

theorem memberNames_comments (texts : List String) : (comments texts).flatMap memberNames = [] := by
  rw [comments, List.flatMap_map, List.flatMap_eq_nil_iff]
  exact fun _ _ => rfl

theorem filterMap_memberName?_comments (texts : List String) :
    (comments texts).filterMap memberName? = [] := by
  rw [comments, List.filterMap_map, List.filterMap_eq_nil_iff]
  exact fun _ _ => rfl

/-- The members of a class are those of its sections. -/
theorem filterMap_memberName?_separated (parts : List (List Fragment)) :
    (Class.separated parts).filterMap memberName? =
      parts.flatMap fun part => part.filterMap memberName? :=
  hom_separated (List.filterMap memberName?) rfl (fun _ _ => List.filterMap_append) rfl parts

end Fragment

/-- The names of the members of a class, section by section. -/
theorem TypeScript.Class.flatMap_memberNames (item : Class) :
    item.fragments.flatMap Fragment.memberNames =
      item.sections.flatMap fun part => part.filterMap Fragment.memberName? := by
  rw [Class.fragments, List.flatMap_append, Fragment.memberNames_comments, List.nil_append,
    ← Fragment.flatMap_filter_isEmpty List.filterMap_nil]
  split
  next none => simp [none, Fragment.memberNames]
  next => simp [Fragment.braced, Fragment.memberNames, Fragment.filterMap_memberName?_separated]

namespace Text

/-- A method is called by the identifier in front of its parameters. -/
theorem memberName_async {name : String} (identifier : ∀ c ∈ name.toList, isIdentifierChar c = true)
    {head : String} {rest : List Char}
    (starts : head.toList = "async ".toList ++ (name.toList ++ '(' :: rest)) :
    memberName head = name := by
  have bracket : isIdentifierChar '(' = false := by decide
  rw [memberName, starts, List.dropPrefix?_append_of_beq _ BEq.rfl, Option.getD_some,
    List.takeWhile_append_of_pos identifier, List.takeWhile_cons_of_neg (by simp [bracket]),
    List.append_nil, String.ofList_toList]

theorem isIdentifierChar_lowerFirst {name : String} (capital : isCapitalIdentifier name = true) :
    ∀ c ∈ (lowerFirst name).toList, isIdentifierChar c = true := by
  rw [isCapitalIdentifier, isIdentifier, Bool.and_eq_true, Bool.and_eq_true, Option.any_eq_true]
    at capital
  obtain ⟨⟨-, identifier⟩, first, starts, upper⟩ := capital
  obtain ⟨rest, chars⟩ := List.head?_eq_some_iff.mp starts
  rw [chars, List.all_eq_true, List.forall_mem_cons] at identifier
  rw [toList_lowerFirst chars upper, List.forall_mem_cons]
  refine ⟨?_, identifier.2⟩
  exact forall_ascii (fun c => c.isUpper = true → isIdentifierChar c.toLower = true) (by decide)
    (ascii_of_isUpper upper) upper

end Text

/-- The method of a procedure is called by its name with a small first letter. -/
theorem ResolvedRpc.memberNames_method (service : Service) {resolved : ResolvedRpc}
    (capital : isCapitalIdentifier resolved.rpc.name = true) :
    (resolved.method service).fragments.filterMap Fragment.memberName? =
      [lowerFirst resolved.rpc.name] := by
  have identifier := isIdentifierChar_lowerFirst capital
  obtain ⟨rest, starts⟩ : ∃ rest, ((resolved.method service).signature ++ " \x7b").toList =
      "async ".toList ++ ((lowerFirst resolved.rpc.name).toList ++ '(' :: rest) := by
    simp [Method.signature, ResolvedRpc.method]
  rw [Method.fragments, List.filterMap_append, Fragment.filterMap_memberName?_comments,
    List.nil_append, Fragment.braced, List.filterMap_cons_some (b := lowerFirst resolved.rpc.name)]
  · rfl
  · rw [Fragment.memberName?, memberName_async identifier starts]

/-- The class of a service has the network client, the constructor and one method for each
procedure. -/
theorem KnownTypes.memberNames_serviceModule {known : KnownTypes} {service : Service}
    {item : Module} (capital : ∀ rpc ∈ service.rpcs, isCapitalIdentifier rpc.name = true)
    (done : known.serviceModule service = .ok item) :
    (item.declarations.flatMap fun layout => layout.flatMap Fragment.memberNames) =
      "client" :: "constructor" :: service.rpcs.map fun rpc => lowerFirst rpc.name := by
  obtain ⟨rpcs, resolved, rest⟩ := bind_eq_ok.mp done
  obtain ⟨imports, -, rest⟩ := bind_eq_ok.mp rest
  obtain rfl := pure_eq_ok.mp rest
  have methods : (rpcs.map fun resolved =>
        (resolved.method service).fragments.filterMap Fragment.memberName?) =
      service.rpcs.map fun rpc => [lowerFirst rpc.name] := by
    refine map_eq_of_mapM resolved fun rpc listed answer found => ?_
    obtain rfl := (resolveRpc_eq_ok.mp found).1
    exact answer.memberNames_method service (capital _ listed)
  have client : [Fragment.line ("client: " ++ Service.clientType)].filterMap Fragment.memberName? =
      ["client"] := by decide
  have constructor : (Constructor.fragments
      { params := [{ name := "client", type := Service.clientType }] }).filterMap
        Fragment.memberName? = ["constructor"] := by decide
  dsimp only
  rw [List.flatMap_singleton, Class.flatMap_memberNames, Service.clientClass, List.flatMap_cons,
    List.flatMap_cons, client, constructor, List.flatMap_map, List.flatMap_def, methods,
    ← List.flatMap_def, ← List.map_eq_flatMap]
  rfl

/-- Methods are kept apart from what else a service's class has exactly if no procedure is called
by a capital and the rest of a fixed name. -/
theorem nodup_clientMembers_iff {rpcs : List Rpc}
    (capital : ∀ rpc ∈ rpcs, isCapitalIdentifier rpc.name = true)
    (distinct : (rpcs.map Rpc.name).Nodup) :
    ("client" :: "constructor" :: rpcs.map fun rpc => lowerFirst rpc.name).Nodup ↔
      ∀ rpc ∈ rpcs, rpc.name ≠ "Client" ∧ rpc.name ≠ "Constructor" := by
  have starts : ∀ rpc ∈ rpcs, rpc.name.toList.head?.any Char.isUpper = true :=
    fun rpc listed => (Bool.and_eq_true_iff.mp (capital rpc listed)).2
  have methods : (rpcs.map fun rpc => lowerFirst rpc.name).Nodup := by
    have lowered : ((rpcs.map Rpc.name).map lowerFirst).Nodup := by
      refine distinct.map_on ?_
      simp only [List.forall_mem_map]
      intro rpc listed other otherListed
      exact (lowerFirst_inj (starts rpc listed) (starts other otherListed)).mp
    rwa [List.map_map] at lowered
  -- Lowered first letters keep names apart, so only the capitalised form of a fixed name clashes.
  have fixed {name : String} (upper : name.toList.head?.any Char.isUpper = true) :
      lowerFirst name ∉ rpcs.map (fun rpc => lowerFirst rpc.name) ↔
        ∀ rpc ∈ rpcs, rpc.name ≠ name := by
    rw [List.mem_map, not_exists]
    refine forall_congr' fun rpc => ?_
    rw [not_and]
    exact imp_congr_right fun listed => not_congr (lowerFirst_inj (starts rpc listed) upper)
  have client := @fixed "Client" (by decide)
  have constructor := @fixed "Constructor" (by decide)
  have lowered : lowerFirst "Client" = "client" ∧ lowerFirst "Constructor" = "constructor" := by
    decide
  rw [lowered.1] at client
  rw [lowered.2] at constructor
  rw [List.nodup_cons, List.nodup_cons, List.mem_cons, not_or, client, constructor]
  simp [methods, forall_and]

namespace Record

variable {record : Record} {method : Constructor} {className : String}

/-- The parameters of a constructor are called by the members of the positional fields, and the
callback by its own name. -/
theorem names_signature (done : record.constructor? className = .ok (some method)) :
    method.signature.map Param.name = record.positional.map Field.memberName ++
      if record.HasOthers then ["configure"] else [] := by
  obtain ⟨-, none⟩ | ⟨-, params, written, isMethod⟩ := constructor?_eq_ok done
  · cases none
  obtain rfl := Option.some.inj isMethod
  have names := map_eq_of_mapM written fun field _ param done => (param_eq_ok done).1
  rw [Constructor.signature, constructorOf, List.map_append, names]
  split <;> simp [Constructor.configureParam]

/-- Parameters have distinct names exactly if no positional field takes the name of the callback
where there is one. -/
theorem nodup_names_signature_iff (distinct : (record.allFields.map Field.memberName).Nodup)
    (done : record.constructor? className = .ok (some method)) :
    (method.signature.map Param.name).Nodup ↔
      ¬ (record.HasOthers ∧ ∃ field ∈ record.positional, field.memberName = "configure") := by
  have positional : (record.positional.map Field.memberName).Nodup := by
    refine distinct.sublist (List.Sublist.map _ ?_)
    exact List.filter_sublist.trans (List.sublist_append_left _ _)
  rw [names_signature done]
  split
  next others => simp [List.nodup_append, positional, others]
  next alone => simp [positional, alone]

end Record

/-- The class of a record is written with its constructor in the last section. -/
theorem KnownTypes.sections_recordClass {known : KnownTypes} {record : Record}
    {item : TypeScript.Class} (done : known.recordClass record = .ok item)
    (nonempty : record.allFields ≠ []) :
    ∃ members method, record.constructor? record.type.called = .ok (some method) ∧
      item.sections = [members, method.fragments] := by
  obtain ⟨name, named, rest⟩ := bind_eq_ok.mp done
  obtain ⟨members, -, rest⟩ := bind_eq_ok.mp rest
  obtain ⟨method, written, rest⟩ := bind_eq_ok.mp rest
  obtain rfl := pure_eq_ok.mp rest
  rw [TypeName.called_eq named]
  obtain ⟨empty, -⟩ | ⟨-, params, -, rfl⟩ := Record.constructor?_eq_ok written
  · exact absurd empty nonempty
  · exact ⟨members, _, written, rfl⟩

/-- The parameters of a record's constructor have distinct names exactly if no required field is
called like the callback where there is one. The members of a service's class have distinct names
exactly if no method is called like the network client or the constructor. -/
theorem class_names_distinct_iff (known : KnownTypes) :
    (∀ record item, known.recordClass record = .ok item → record.allFields ≠ [] →
      (record.allFields.map Field.memberName).Nodup →
      ∃ members method, record.constructor? record.type.called = .ok (some method) ∧
        item.sections = [members, method.fragments] ∧
        ((method.signature.map Param.name).Nodup ↔
          ¬ (record.HasOthers ∧ ∃ field ∈ record.positional, field.memberName = "configure"))) ∧
      ∀ service item, known.serviceModule service = .ok item →
        (∀ rpc ∈ service.rpcs, isCapitalIdentifier rpc.name = true) →
        (service.rpcs.map Rpc.name).Nodup →
        ((item.declarations.flatMap fun layout => layout.flatMap Fragment.memberNames).Nodup ↔
          ∀ rpc ∈ service.rpcs, rpc.name ≠ "Client" ∧ rpc.name ≠ "Constructor") := by
  constructor
  · intro record item done nonempty distinct
    obtain ⟨members, method, written, sections⟩ := known.sections_recordClass done nonempty
    exact ⟨members, method, written, sections, Record.nodup_names_signature_iff distinct written⟩
  · intro service item done capital distinct
    rw [KnownTypes.memberNames_serviceModule capital done]
    exact nodup_clientMembers_iff capital distinct

/-- A record with an optional field that is called like the callback. -/
def kettle : Record where
  type := ⟨"kitchen.Kettle"⟩
  fields :=
    [{ name := "label", type := ⟨"string"⟩ },
      { name := "configure", type := ⟨"string"⟩, cardinality := .optional }]

/-- A service with a procedure whose name starts like the network client. -/
def counterService : Service where
  type := ⟨"kitchen.CounterService"⟩
  rpcs :=
    [{ name := "Order", requestType := timestamp, responseType := timestamp },
      { name := "ClientOf", requestType := timestamp, responseType := timestamp }]

theorem kettle_names_distinct :
    (∃ method, kettle.constructor? kettle.type.called = .ok (some method) ∧
      (method.signature.map Param.name).Nodup) ∧
    ∃ item, KnownTypes.initial.serviceModule counterService = .ok item ∧
      (item.declarations.flatMap fun layout => layout.flatMap Fragment.memberNames).Nodup := by
  obtain ⟨records, services⟩ := class_names_distinct_iff .initial
  constructor
  · obtain ⟨item, done⟩ : ∃ item, KnownTypes.initial.recordClass kettle = .ok item := ⟨_, rfl⟩
    obtain ⟨-, method, written, -, distinct⟩ := records kettle item done (by decide) (by decide)
    exact ⟨method, written, distinct.mpr (by decide)⟩
  · obtain ⟨item, done⟩ : ∃ item, KnownTypes.initial.serviceModule counterService = .ok item :=
      ⟨_, rfl⟩
    exact ⟨item, done, (services counterService item done (by decide) (by decide)).mpr (by decide)⟩

/-- A record with a required field that is called like the callback, which it needs for the other
field. -/
def mixer : Record where
  type := ⟨"kitchen.Mixer"⟩
  fields :=
    [{ name := "configure", type := ⟨"string"⟩ },
      { name := "speed", type := ⟨"double"⟩, cardinality := .optional }]

/-- A service with a procedure whose method is called like the network client. -/
def deskService : Service where
  type := ⟨"kitchen.DeskService"⟩
  rpcs := [{ name := "Client", requestType := timestamp, responseType := timestamp }]

theorem mixer_configure_twice :
    ((mixer.allFields.map Field.memberName).Nodup ∧
      (∃ item, KnownTypes.initial.recordClass mixer = .ok item) ∧
      ∃ method, mixer.constructor? mixer.type.called = .ok (some method) ∧
        ¬ (method.signature.map Param.name).Nodup) ∧
    (∀ rpc ∈ deskService.rpcs, isCapitalIdentifier rpc.name = true) ∧
      (deskService.rpcs.map Rpc.name).Nodup ∧
      ∃ item, KnownTypes.initial.serviceModule deskService = .ok item ∧
        ¬ (item.declarations.flatMap fun layout => layout.flatMap Fragment.memberNames).Nodup := by
  have capital : ∀ rpc ∈ deskService.rpcs, isCapitalIdentifier rpc.name = true := by decide
  obtain ⟨item, done⟩ : ∃ item, KnownTypes.initial.serviceModule deskService = .ok item := ⟨_, rfl⟩
  refine ⟨⟨by decide, ⟨_, rfl⟩, _, rfl, by decide⟩, capital, by decide, item, done, ?_⟩
  rw [KnownTypes.memberNames_serviceModule capital done]
  decide

end Typescribe
