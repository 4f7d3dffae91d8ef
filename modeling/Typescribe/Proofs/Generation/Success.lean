import Typescribe.Proofs.Generation.Run

/-!
# When generation succeeds

Schema files are generated exactly if their field types can be named, no field is of a service,
and every procedure sends and receives records that its own file or an earlier one declares. The
files alone never make a run fail.
-/

namespace Typescribe

open KnownTypes (knowing)
open Session (Fits forall_split_concat_iff)

/-- The conditions under which schema files can be generated. -/
structure Generable (files : List SchemaFile) : Prop where
  /-- A field type of the form of a scalar is one, and every other one names something. -/
  fieldsNamed : ∀ part ∈ Declaration.flattenAll (rootsOf files), ∀ field ∈ part.ownFields,
    (field.type.isScalar = true → ∃ scalar : Scalar, scalar.name = field.type.text) ∧
      (field.type.isScalar = false → field.type.names ≠ [])
  /-- No field is of a service, wherever the service is declared. -/
  noServiceFields : ∀ part ∈ Declaration.flattenAll (rootsOf files), ∀ field ∈ part.ownFields,
    ∀ root ∈ rootsOf files, root.isService = true → field.type ≠ root.type
  /-- What procedures send and receive is the timestamp or a record declared so far. -/
  messagesDeclared : ∀ before file after, files = before ++ file :: after →
    ∀ service ∈ file.services, ∀ type ∈ service.rpcTypes,
      type = timestamp ∨ ∃ part ∈ Declaration.flattenAll (rootsOf (before ++ [file])),
        part.kind = .record ∧ part.type = type

namespace Generable

variable {files : List SchemaFile} {last : SchemaFile}

/-- A declared record is one that procedures can send, and so is the timestamp. -/
theorem carries_iff {roots : List Declaration} (wellFormed : WellFormed roots) (type : TypeName) :
    (knowing roots).Carries type ↔
      type = timestamp ∨ ∃ part ∈ Declaration.flattenAll roots,
        part.kind = .record ∧ part.type = type := by
  constructor
  · rintro ⟨head, nested, found⟩
    rcases KnownTypes.find?_knowing_cases found with ⟨isTimestamp, -⟩ | ⟨declared, same⟩
    · exact .inl isTimestamp
    · exact .inr ⟨.record head nested, declared, rfl, same⟩
  · rintro (rfl | ⟨part, declared, isRecord, rfl⟩)
    · exact ⟨_, _, KnownTypes.find?_knowing_timestamp roots⟩
    · have found := wellFormed.find?_knowing declared
      cases part with
      | record head nested => exact ⟨head, nested, found⟩
      | enumeration body => cases isRecord
      | service body => cases isRecord

/-- A field can be written if its type can be named and is not that of a declared service. -/
theorem admits_iff {roots : List Declaration} (wellFormed : WellFormed roots) (type : TypeName) :
    (knowing roots).Admits type ↔
      (∃ name, type.className = .ok name) ∧
        ∀ root ∈ roots, root.isService = true → type ≠ root.type := by
  refine and_congr_right fun _ => ?_
  constructor
  · rintro admitted root member isService rfl
    obtain ⟨service, rfl⟩ := Declaration.isService_iff.mp isService
    have declared := Declaration.mem_flattenAll_of_mem member
    rcases admitted with scalar | notFound
    · have named := wellFormed.names_ne_nil declared
      exact named (TypeName.names_eq_nil_of_isScalar scalar)
    · have found := wellFormed.find?_knowing declared
      exact notFound service found
  · intro noService
    refine .inr fun body found => ?_
    rcases KnownTypes.find?_knowing_cases found with ⟨-, impossible⟩ | ⟨declared, same⟩
    · cases impossible
    · obtain ⟨root, member, inside⟩ := Declaration.mem_flattenAll.mp declared
      have isRoot := wellFormed.eq_of_service_mem member inside
      exact noService _ (isRoot ▸ member) rfl same.symm

/-- What is declared with one more file was declared before or is in that file. -/
theorem mem_flattenAll_concat {part : Declaration} :
    part ∈ Declaration.flattenAll (rootsOf (files ++ [last])) ↔
      part ∈ Declaration.flattenAll (rootsOf files) ∨ part ∈ last.allTypes := by
  rw [rootsOf_concat, Declaration.flattenAll_append, List.mem_append]
  rfl

/-- The files before the last can be generated without it. -/
theorem of_concat (generable : Generable (files ++ [last])) : Generable files := by
  refine ⟨fun part declared => ?_, fun part declared field listed root member => ?_, ?_⟩
  · exact generable.fieldsNamed part (mem_flattenAll_concat.mpr (.inl declared))
  · refine generable.noServiceFields part (mem_flattenAll_concat.mpr (.inl declared)) field listed
      root ?_
    rw [rootsOf_concat]
    exact List.mem_append_left _ member
  · exact (forall_split_concat_iff.mp generable.messagesDeclared).1

section

variable (wellFormed : WellFormed (rootsOf files ++ last.declarations))
include wellFormed

/-- The last of files that can be generated fits after those before it. -/
theorem fits_of_concat (generable : Generable (files ++ [last])) : Fits (rootsOf files) last := by
  constructor
  case fields =>
    intro part declared field listed
    have declared : part ∈ Declaration.flattenAll (rootsOf (files ++ [last])) :=
      mem_flattenAll_concat.mpr (.inr declared)
    rw [admits_iff wellFormed, TypeName.className_isOk_iff, ← rootsOf_concat]
    exact ⟨generable.fieldsNamed part declared field listed,
      generable.noServiceFields part declared field listed⟩
  case messages =>
    intro service member type listed
    rw [carries_iff wellFormed, ← rootsOf_concat]
    exact generable.messagesDeclared files last [] rfl service member type listed
  case awaited =>
    intro part declared type referenced service member same
    obtain ⟨-, field, listed, rfl⟩ := Declaration.mem_ownReferences.mp referenced
    have inRoots : .service service ∈ rootsOf (files ++ [last]) := by
      rw [rootsOf_concat]
      exact List.mem_append_right _ member
    exact generable.noServiceFields part (mem_flattenAll_concat.mpr (.inl declared)) field listed
      _ inRoots rfl same.symm

/-- A file that fits can be generated after those before it. -/
theorem concat (generable : Generable files) (fits : Fits (rootsOf files) last) :
    Generable (files ++ [last]) := by
  have admitted : ∀ part ∈ last.allTypes, ∀ field ∈ part.ownFields,
      (∃ name, field.type.className = .ok name) ∧
        ∀ root ∈ rootsOf files ++ last.declarations, root.isService = true →
          field.type ≠ root.type :=
    fun part declared field listed => (admits_iff wellFormed _).mp
      (fits.fields part declared field listed)
  constructor
  case fieldsNamed =>
    intro part declared field listed
    rcases mem_flattenAll_concat.mp declared with before | now
    · exact generable.fieldsNamed part before field listed
    · exact (TypeName.className_isOk_iff _).mp (admitted part now field listed).1
  case noServiceFields =>
    intro part declared field listed root member isService
    rw [rootsOf_concat] at member
    rcases mem_flattenAll_concat.mp declared with before | now
    · rcases List.mem_append.mp member with isEarlier | isLast
      · exact generable.noServiceFields part before field listed root isEarlier isService
      · intro same
        have named := wellFormed.names_ne_nil (Declaration.mem_flattenAll_of_mem member)
        have notScalar : field.type.isScalar = false := by
          rw [same]
          exact TypeName.isScalar_eq_false named
        have referenced := Declaration.mem_ownReferences.mpr ⟨notScalar, field, listed, rfl⟩
        obtain ⟨service, rfl⟩ := Declaration.isService_iff.mp isService
        exact fits.awaited part before _ referenced service isLast same.symm
    · exact (admitted part now field listed).2 root member isService
  case messagesDeclared =>
    refine forall_split_concat_iff.mpr ⟨generable.messagesDeclared, ?_⟩
    intro service member type listed
    rw [rootsOf_concat, ← carries_iff wellFormed]
    exact fits.messages service member type listed

end

/-- Schema files can be generated if each fits after those before it. -/
theorem iff_forall_fits (wellFormed : WellFormed (rootsOf files)) :
    Generable files ↔
      ∀ before file after, files = before ++ file :: after → Fits (rootsOf before) file := by
  induction files using List.reverseRecOn with
  | nil =>
    refine ⟨fun _ before file after split => absurd split (by simp), fun _ => ⟨?_, ?_, ?_⟩⟩
    · exact fun _ declared => absurd declared List.not_mem_nil
    · exact fun _ declared => absurd declared List.not_mem_nil
    · exact fun before file after split => absurd split (by simp)
  | append_singleton files last ih =>
    rw [rootsOf_concat] at wellFormed
    rw [forall_split_concat_iff, ← ih wellFormed.of_append_left]
    exact ⟨fun generable => ⟨generable.of_concat, fits_of_concat wellFormed generable⟩,
      fun ⟨generable, fits⟩ => concat wellFormed generable fits⟩

/-- The first of files that can be generated can be generated. -/
theorem of_append_left {rest : List SchemaFile} (wellFormed : WellFormed (rootsOf (files ++ rest)))
    (generable : Generable (files ++ rest)) : Generable files := by
  rw [iff_forall_fits wellFormed] at generable
  rw [rootsOf_append] at wellFormed
  rw [iff_forall_fits wellFormed.of_append_left]
  intro before file after split
  exact generable before file (after ++ rest) (by rw [split, List.append_assoc, List.cons_append])

theorem not_mem_services (noServices : ∀ file ∈ files, file.services = [])
    {before after : List SchemaFile} {file : SchemaFile} (split : files = before ++ file :: after)
    (service : Service) : service ∉ file.services := by
  have listed : file ∈ files := split ▸ List.mem_append_right _ List.mem_cons_self
  rw [noServices file listed]
  exact List.not_mem_nil

theorem survey : Generable surveyFiles where
  fieldsNamed := by decide
  noServiceFields := by decide
  messagesDeclared := by
    have noServices : ∀ file ∈ surveyTypes, file.services = [] := by decide
    refine forall_split_concat_iff.mpr ⟨fun before file after split service member => ?_, by decide⟩
    exact absurd member (not_mem_services noServices split service)

/-- Without services, the order of the files plays no part. -/
theorem perm {others : List SchemaFile} (generable : Generable files) (perm : files.Perm others)
    (noServices : ∀ file ∈ files, file.services = []) : Generable others := by
  have rootsPerm : (rootsOf files).Perm (rootsOf others) := perm.flatMap_right _
  have flatPerm : (Declaration.flattenAll (rootsOf files)).Perm
      (Declaration.flattenAll (rootsOf others)) := by
    simp only [Declaration.flattenAll_eq_flatMap]
    exact rootsPerm.flatMap_right Declaration.flatten
  refine ⟨?_, ?_, ?_⟩
  · intro part declared
    exact generable.fieldsNamed part (flatPerm.mem_iff.mpr declared)
  · intro part declared field listed root member
    exact generable.noServiceFields part (flatPerm.mem_iff.mpr declared) field listed root
      (rootsPerm.mem_iff.mpr member)
  · intro before file after split service member
    have otherServices : ∀ file ∈ others, file.services = [] := fun file listed =>
      noServices file (perm.mem_iff.mpr listed)
    exact absurd member (not_mem_services otherServices split service)

end Generable

/-- A run over well-formed schema files succeeds exactly if they can be generated. -/
theorem exists_processFiles_iff {files : List SchemaFile}
    (wellFormed : WellFormed (rootsOf files)) :
    (∃ session, Session.processFiles { store := ({} : MemoryStore) } files = (.ok (), session)) ↔
      Generable files := by
  rw [Generable.iff_forall_fits wellFormed]
  exact (Session.processFiles_meets wellFormed).exists_ok_iff

/-- A run over well-formed schema files succeeds exactly if their field types can be named, no
field is of a service, and every procedure sends and receives records declared so far. It never
fails for a missing path or at reading or writing a file, and without services the order of the
files decides nothing. -/
theorem processFiles_succeeds_iff {files : List SchemaFile}
    (wellFormed : WellFormed (rootsOf files)) :
    ((∃ session, Session.processFiles { store := ({} : MemoryStore) } files = (.ok (), session)) ↔
      Generable files) ∧
    (∀ reason session,
      Session.processFiles { store := ({} : MemoryStore) } files = (.error reason, session) →
        (∀ type, reason ≠ .missingOutputPath type) ∧ (∀ path fault, reason ≠ .read path fault) ∧
          ∀ path fault, reason ≠ .write path fault) ∧
    ((∀ file ∈ files, file.services = []) → ∀ others, files.Perm others →
      ((∃ session, Session.processFiles { store := ({} : MemoryStore) } files = (.ok (), session)) ↔
        ∃ session, Session.processFiles { store := ({} : MemoryStore) } others =
          (.ok (), session))) := by
  refine ⟨exists_processFiles_iff wellFormed, ?_, ?_⟩
  · intro reason session failed
    have fault := (Session.processFiles_meets wellFormed).of_error failed
    refine ⟨?_, ?_, ?_⟩
    · rintro type rfl
      exact Bool.false_ne_true fault
    · rintro path cause rfl
      exact Bool.false_ne_true fault
    · rintro path cause rfl
      exact Bool.false_ne_true fault
  · intro noServices others perm
    have rootsPerm : (rootsOf files).Perm (rootsOf others) := perm.flatMap_right _
    rw [exists_processFiles_iff wellFormed, exists_processFiles_iff (wellFormed.perm rootsPerm)]
    have otherServices : ∀ file ∈ others, file.services = [] := fun file member =>
      noServices file (perm.mem_iff.mpr member)
    exact ⟨fun generable => generable.perm perm noServices,
      fun generable => generable.perm perm.symm otherServices⟩

/-- The survey is generated, and its types also with the files the other way round. -/
theorem survey_processFiles :
    (∃ session,
      Session.processFiles { store := ({} : MemoryStore) } surveyFiles = (.ok (), session)) ∧
    ((∃ session,
      Session.processFiles { store := ({} : MemoryStore) } surveyTypes = (.ok (), session)) ↔
      ∃ session,
        Session.processFiles { store := ({} : MemoryStore) } surveyTypes.reverse =
          (.ok (), session)) :=
  ⟨(processFiles_succeeds_iff survey_wellFormed).1.mpr Generable.survey,
    (processFiles_succeeds_iff (by decide)).2.2 (by decide) _
      (List.reverse_perm surveyTypes).symm⟩

end Typescribe
