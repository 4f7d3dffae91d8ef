import Typescribe.Proofs.Generation.KnownTypes

/-!
# Schemas without documentation

Two schemas that become the same without their documentation differ in nothing else. Taking the
documentation away changes no type and no name, and commutes with collecting and registering
declarations.
-/

namespace Typescribe

open Placeholder

def Field.undocumented (field : Field) : Field :=
  { field with documentation := "" }

def OneOf.undocumented (group : OneOf) : OneOf :=
  { group with documentation := "", fields := group.fields.map Field.undocumented }

def Record.undocumented (record : Record) : Record :=
  { record with
    documentation := ""
    fields := record.fields.map Field.undocumented
    oneOfs := record.oneOfs.map OneOf.undocumented }

def Enumeration.undocumented (body : Enumeration) : Enumeration :=
  { body with
    documentation := ""
    constants := body.constants.map fun constant => { constant with documentation := "" } }

def Rpc.undocumented (rpc : Rpc) : Rpc :=
  { rpc with documentation := "" }

def Service.undocumented (service : Service) : Service :=
  { service with documentation := "", rpcs := service.rpcs.map Rpc.undocumented }

namespace Declaration

mutual

/-- A declaration with no documentation on anything in it. -/
def undocumented : Declaration → Declaration
  | record head nested => record head.undocumented (undocumentedAll nested)
  | enumeration body => enumeration body.undocumented
  | service body => service body.undocumented

def undocumentedAll : List Declaration → List Declaration
  | [] => []
  | first :: rest => first.undocumented :: undocumentedAll rest

end

end Declaration

/-- A schema file with no documentation on anything in it. -/
def SchemaFile.undocumented (file : SchemaFile) : SchemaFile :=
  { file with declarations := file.declarations.map Declaration.undocumented }

def KnownTypes.undocumented (known : KnownTypes) : KnownTypes :=
  ⟨known.declarations.map Declaration.undocumented⟩

namespace Record

variable (record : Record)

theorem allFields_undocumented :
    record.undocumented.allFields = record.allFields.map Field.undocumented := by
  simp [allFields, undocumented, OneOf.undocumented, List.flatMap_map, List.map_flatMap]

@[simp] theorem fieldCount_undocumented : record.undocumented.fieldCount = record.fieldCount := by
  simp [fieldCount, allFields_undocumented]

theorem types_undocumented :
    record.undocumented.allFields.map Field.type = record.allFields.map Field.type := by
  simp [allFields_undocumented, Field.undocumented]

theorem requiredFields_undocumented :
    record.undocumented.requiredFields = record.requiredFields.map Field.undocumented := by
  rw [requiredFields, requiredFields, undocumented, List.filter_map]
  rfl

end Record

namespace Declaration

theorem undocumentedAll_eq_map (declarations : List Declaration) :
    undocumentedAll declarations = declarations.map undocumented := by
  induction declarations with
  | nil => rfl
  | cons first rest ih => rw [undocumentedAll, ih, List.map_cons]

@[simp] theorem type_undocumented (declaration : Declaration) :
    declaration.undocumented.type = declaration.type := by
  cases declaration <;> rfl

@[simp] theorem kind_undocumented (declaration : Declaration) :
    declaration.undocumented.kind = declaration.kind := by
  cases declaration <;> rfl

@[simp] theorem isService_undocumented (declaration : Declaration) :
    declaration.undocumented.isService = declaration.isService := by
  cases declaration <;> rfl

mutual

theorem flatten_undocumented (declaration : Declaration) :
    declaration.undocumented.flatten = declaration.flatten.map undocumented := by
  cases declaration with
  | record head nested =>
    rw [undocumented, flatten, flatten, List.map_cons, undocumentedAll_eq_map,
      flattenAll_undocumented, undocumented, undocumentedAll_eq_map]
  | enumeration body => rfl
  | service body => rfl

theorem flattenAll_undocumented (declarations : List Declaration) :
    flattenAll (declarations.map undocumented) = (flattenAll declarations).map undocumented := by
  cases declarations with
  | nil => rfl
  | cons first rest =>
    rw [List.map_cons, flattenAll, flattenAll, flatten_undocumented, flattenAll_undocumented,
      List.map_append]

end

theorem mentionedTypes_undocumented (declaration : Declaration) :
    declaration.undocumented.mentionedTypes = declaration.mentionedTypes := by
  cases declaration with
  | record head nested => exact congrArg (List.cons head.type) head.types_undocumented
  | enumeration body => rfl
  | service body =>
    refine congrArg (List.cons body.type) ?_
    rw [Service.rpcTypes, Service.rpcTypes, Service.undocumented, List.flatMap_map]
    rfl

/-- The texts that are left are texts of the declaration, or nothing. -/
theorem of_mem_texts_undocumented {declaration : Declaration} {text : String}
    (member : text ∈ declaration.undocumented.texts) : text = "" ∨ text ∈ declaration.texts := by
  have ofField : ∀ field : Field, text ∈ field.undocumented.texts →
      text = "" ∨ text ∈ field.texts := by
    intro field member
    simp only [Field.texts, Field.undocumented, List.mem_cons] at member ⊢
    tauto
  cases declaration with
  | record head nested =>
    simp [undocumented, texts, Record.undocumented, OneOf.undocumented, OneOf.texts,
      List.flatMap_map] at member ⊢
    grind
  | enumeration body =>
    simp [undocumented, texts, Enumeration.undocumented] at member ⊢
    grind
  | service body => 
    simp [undocumented, texts, Service.undocumented, Rpc.undocumented] at member ⊢
    grind

end Declaration

theorem SchemaFile.dataTypes_undocumented (file : SchemaFile) :
    file.undocumented.dataTypes = file.dataTypes.map Declaration.undocumented := by
  simp [dataTypes, undocumented, List.filter_map, Function.comp_def]

theorem SchemaFile.services_undocumented (file : SchemaFile) :
    file.undocumented.services = file.services.map Service.undocumented := by
  rw [services, services, undocumented, List.filterMap_map, List.map_filterMap]
  apply List.filterMap_congr
  intro declaration _
  cases declaration <;> rfl

theorem rootsOf_undocumented (files : List SchemaFile) :
    rootsOf (files.map SchemaFile.undocumented) = (rootsOf files).map Declaration.undocumented := by
  rw [rootsOf, rootsOf, List.flatMap_map, List.map_flatMap]
  rfl

theorem bracelessTypes_undocumented {roots : List Declaration} :
    BracelessTypes (roots.map Declaration.undocumented) ↔ BracelessTypes roots := by
  simp [BracelessTypes, Declaration.flattenAll_undocumented,
    Declaration.mentionedTypes_undocumented]

theorem UnmarkedTexts.undocumented {roots : List Declaration} (unmarked : UnmarkedTexts roots) :
    UnmarkedTexts (roots.map Declaration.undocumented) := by
  intro declaration declared text member
  rw [Declaration.flattenAll_undocumented] at declared
  obtain ⟨documented, listed, rfl⟩ := List.mem_map.mp declared
  rcases Declaration.of_mem_texts_undocumented member with rfl | member
  · exact .nil
  · exact unmarked documented listed text member

namespace KnownTypes

variable (known : KnownTypes)

theorem find?_undocumented (type : TypeName) :
    known.undocumented.find? type = (known.find? type).map Declaration.undocumented := by
  rw [find?, find?, undocumented, List.find?_map]
  simp only [Function.comp_def, Declaration.type_undocumented]

@[simp] theorem contains_undocumented (type : TypeName) :
    known.undocumented.contains type = known.contains type := by
  rw [contains, contains, find?_undocumented, Option.isSome_map]

theorem add_undocumented (declaration : Declaration) :
    known.undocumented.add declaration.undocumented = (known.add declaration).undocumented := by
  rw [add, add]
  simp only [contains_undocumented, Declaration.type_undocumented]
  split
  · rfl
  · simp [undocumented]

theorem addAll_undocumented (declarations : List Declaration) :
    known.undocumented.addAll (declarations.map Declaration.undocumented) =
      ((known.addAll declarations).1.undocumented,
        (known.addAll declarations).2.map Declaration.undocumented) := by
  induction declarations generalizing known with
  | nil => rfl
  | cons declaration rest ih =>
    rw [List.map_cons, addAll, addAll, add_undocumented, ih]
    simp only [contains_undocumented, Declaration.type_undocumented]
    split <;> rfl

theorem register_undocumented (roots : List Declaration) :
    known.undocumented.register (roots.map Declaration.undocumented) =
      { known := (known.register roots).known.undocumented
        newTypes := (known.register roots).newTypes.map Declaration.undocumented
        newRoots := (known.register roots).newRoots.map Declaration.undocumented } := by
  induction roots generalizing known with
  | nil => rfl
  | cons root rest ih =>
    rw [List.map_cons, register, register, Declaration.flatten_undocumented, addAll_undocumented]
    dsimp only
    rw [ih]
    simp only [contains_undocumented, Declaration.type_undocumented, List.map_append]
    split <;> rfl

end KnownTypes

end Typescribe
