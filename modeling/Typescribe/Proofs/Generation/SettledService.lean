import Typescribe.Proofs.Generation.SoundTemplate

/-!
# Modules of services have no tokens

A service's module is written once, with everything it uses known, and the network client's
interface is a fixed text. Neither holds a token, whatever the procedures are called.
-/

namespace Typescribe

open TypeScript Placeholder

open KnownTypes (knowing)

open Fragment (UnmarkedLines)

namespace Service

theorem unmarked_route (service rpc : String) : Unmarked (route service rpc).toList :=
  (Unmarked.kebab _).join_literal (by decide) (Unmarked.kebab _)

theorem unmarked_name {service : Service} (braceless : Braceless service.type.text.toList) :
    Unmarked service.name.toList := by
  rw [name, TypeName.simpleName]
  cases last : service.type.names.getLast? with
  | none => exact .of_braceless braceless
  | some innermost =>
    have listed := TypeName.mem_segments_of_mem_names (List.mem_of_getLast? last)
    exact .of_braceless (TypeName.braceless_of_mem_segments braceless listed)

/-- Characters can be looked at before they are put into a text. -/
theorem plain_ofList {chars : List Char}
    (checked : chars.all fun c => decide (c ≠ '\n' ∧ c ≠ '\r' ∧ c ≠ 'D')) :
    ∀ c ∈ (String.ofList chars).toList, c ≠ '\n' ∧ c ≠ '\r' ∧ c ≠ 'D' := by
  rw [String.toList_ofList]
  simpa only [List.all_eq_true, decide_eq_true_eq] using checked

/-- The lines of the interface have no line endings in them, and the capital of the mark is in
none. -/
theorem clientSource_plain : ∀ line ∈ clientSource, ∀ c ∈ line.toList,
    c ≠ '\n' ∧ c ≠ '\r' ∧ c ≠ 'D' := by
  rw [clientSource]
  -- Taking the lines as lists of characters is much faster than reading them back from the texts.
  repeat' refine List.forall_mem_cons.mpr ⟨plain_ofList (by decide), ?_⟩
  exact fun _ member => absurd member List.not_mem_nil

theorem lines_clientSource : Text.lines (String.intercalate "\n" clientSource) = clientSource := by
  have plain : ∀ line ∈ clientSource.map String.toList,
      '\n' ∉ line ∧ line.getLast? ≠ some '\r' := by
    rw [List.forall_mem_map]
    intro line listed
    have absent := clientSource_plain line listed
    exact ⟨fun member => (absent _ member).1 rfl,
      fun last => (absent _ (List.mem_of_getLast? last)).2.1 rfl⟩
  have closed : ∀ last ∈ (clientSource.map String.toList).getLast?, last ≠ [] := by decide
  have lines := Text.lineChars_intercalate plain closed
  rw [Text.lines, String.toList_intercalate]
  refine (congrArg (List.map String.ofList) lines).trans ?_
  rw [List.map_map]
  exact List.map_id'' (fun _ => String.ofList_toList) _

/-- The interface of the network client holds no token. -/
theorem settled_clientModule : Settled clientModule.render.toList := by
  apply Module.settled_render
  · exact fun _ member => absurd member List.not_mem_nil
  · refine List.forall_mem_singleton.mpr (unmarkedLines_verbatim ?_)
    rw [lines_clientSource]
    intro line listed
    have noCapital : 'D' ∉ line.toList := fun member =>
      (clientSource_plain line listed _ member).2.2 rfl
    exact .of_capital_not_mem noCapital

/-- The interface of the network client starts with a comment. -/
theorem head?_clientModule : clientModule.render.toList.head? = some '/' := by
  rw [TypeScript.Module.render_toList, clientModule, verbatim, lines_clientSource]
  decide

end Service

namespace ResolvedRpc

variable {resolved : ResolvedRpc} (request : Unmarked resolved.requestName.toList)
  (response : Unmarked resolved.responseName.toList)

include request response in
/-- The method of a procedure has no mark. -/
theorem unmarkedLines_method (service : Service) (name : Unmarked resolved.rpc.name.toList)
    (documentation : Unmarked resolved.rpc.documentation.toList) :
    UnmarkedLines (resolved.method service).fragments := by
  apply Method.unmarkedLines
  · apply Method.unmarked_signature
    · exact name.lowerFirst
    · intro param member
      rw [method] at member
      dsimp only at member
      split at member
      · rw [List.mem_singleton.mp member]
        exact ⟨.of_not_mem (by decide : '{' ∉ "request".toList), request, by rintro _ ⟨⟩⟩
      · exact absurd member List.not_mem_nil
    · rintro _ ⟨⟩
      have opened := response.literal_append (by decide : '{' ∉ "Promise<".toList)
      exact opened.append_literal (.of_not_mem (by decide)) (by decide)
  · have payload :
        Unmarked (if resolved.hasPayload then "serialize(request)" else "null").toList := by
      split
      · exact .of_not_mem (by decide)
      · exact .of_not_mem (by decide)
    have posted := (Service.unmarked_route service.name resolved.rpc.name).literal_append
      (by decide : '{' ∉ "const response = await this.client.post(\"".toList)
    have sent := posted.join_literal (by decide : Divider "\", ".toList) payload
    have returned := response.literal_append (by decide : '{' ∉ "return plainToClass(".toList)
    rw [method]
    refine List.forall_mem_cons.mpr ⟨?_, List.forall_mem_singleton.mpr ?_⟩
    · exact sent.append_literal (.of_not_mem (by decide)) (by decide)
    · exact returned.append_literal (.of_not_mem (by decide)) (by decide)
  · exact documentation.docLines

end ResolvedRpc

/-- The imports of a service's module have no marks. -/
theorem Service.unmarked_imports {service : Service} {rpcs : List ResolvedRpc}
    {imports : List Import} (done : service.imports rpcs = .ok imports)
    (braceless : ∀ resolved ∈ rpcs, ∀ type ∈ resolved.mentioned, Braceless type.text.toList) :
    ∀ item ∈ imports, Unmarked item.line.toList := by
  intro item listed
  rcases (Service.mem_imports_iff done).mp listed with
    rfl | ⟨-, rfl⟩ | ⟨resolved, given, type, mentioned, -, made⟩
  · exact Import.unmarked_line (.of_not_mem (by decide))
      (fun name given => by cases given; exact .of_not_mem (by decide))
      fun _ named => absurd named List.not_mem_nil
  · have runtime : Unmarked "class-transformer".toList := .of_not_mem (by decide)
    refine Import.unmarked_line runtime (fun _ given => by cases given) ?_
    refine List.forall_mem_cons.mpr ⟨.of_not_mem (by decide), fun name named => ?_⟩
    split at named
    · rw [List.mem_singleton.mp named]
      exact .of_not_mem (by decide)
    · exact absurd named List.not_mem_nil
  · exact TypeName.unmarked_import (braceless resolved given type mentioned) made

/-- The module of a service holds no token. -/
theorem BracelessTypes.settled_serviceModule {roots : List Declaration} {service : Service}
    {known : KnownTypes} {item : Module} (bracelessTypes : BracelessTypes roots)
    (unmarkedTexts : UnmarkedTexts roots) (member : .service service ∈ roots)
    (done : known.serviceModule service = .ok item) : Settled item.render.toList := by
  have declared := Declaration.mem_flattenAll_of_mem member
  have braceless : ∀ rpc ∈ service.rpcs,
      Braceless rpc.requestType.text.toList ∧ Braceless rpc.responseType.text.toList := by
    intro rpc listed
    have mentioned : ∀ type ∈ [rpc.requestType, rpc.responseType], Braceless type.text.toList :=
      fun type isType => bracelessTypes _ declared type
        (List.mem_cons_of_mem _ (List.mem_flatMap.mpr ⟨rpc, listed, isType⟩))
    exact ⟨mentioned _ (by simp), mentioned _ (by simp)⟩
  have texts : ∀ rpc ∈ service.rpcs,
      Unmarked rpc.name.toList ∧ Unmarked rpc.documentation.toList := by
    intro rpc listed
    have unmarked : ∀ text ∈ [rpc.name, rpc.documentation], Unmarked text.toList :=
      fun text isText => unmarkedTexts _ declared text
        (List.mem_cons_of_mem _ (List.mem_flatMap.mpr ⟨rpc, listed, isText⟩))
    exact ⟨unmarked _ (by simp), unmarked _ (by simp)⟩
  obtain ⟨rpcs, resolves, rest⟩ := bind_eq_ok.mp done
  obtain ⟨imports, imported, rest⟩ := bind_eq_ok.mp rest
  obtain rfl := pure_eq_ok.mp rest
  apply Module.settled_render
  · refine Service.unmarked_imports imported fun resolved given type mentioned => ?_
    obtain ⟨rpc, listed, resolution⟩ := exists_of_mem_mapM resolves given
    obtain ⟨isRequest, isResponse⟩ := KnownTypes.types_of_resolveRpc resolution
    rcases ResolvedRpc.mem_mentioned.mp mentioned with ⟨rfl, -⟩ | rfl
    · exact isRequest ▸ (braceless rpc listed).1
    · exact isResponse ▸ (braceless rpc listed).2
  · rw [List.forall_mem_singleton]
    apply Class.unmarkedLines
    · exact Service.unmarked_name (bracelessTypes _ declared _ List.mem_cons_self)
    · exact (unmarkedTexts _ declared _ List.mem_cons_self).docLines
    · refine List.forall_mem_cons.mpr ⟨?_, List.forall_mem_cons.mpr ⟨?_, fun part method => ?_⟩⟩
      · exact .line (.of_not_mem (by decide)) .nil
      · refine Constructor.unmarkedLines (List.forall_mem_singleton.mpr ?_)
          (fun _ given => by cases given)
        exact ⟨.of_not_mem (by decide), .of_not_mem (by decide), fun _ given => by cases given⟩
      · obtain ⟨resolved, given, rfl⟩ := List.mem_map.mp method
        obtain ⟨rpc, listed, resolution⟩ := exists_of_mem_mapM resolves given
        obtain ⟨rfl, -, -, requestNamed, responseNamed⟩ :=
          KnownTypes.resolveRpc_eq_ok.mp resolution
        obtain ⟨bracelessRequest, bracelessResponse⟩ := braceless _ listed
        obtain ⟨name, documentation⟩ := texts _ listed
        exact ResolvedRpc.unmarkedLines_method
          (.of_braceless (TypeName.className_braceless bracelessRequest requestNamed))
          (.of_braceless (TypeName.className_braceless bracelessResponse responseNamed)) service
          name documentation

end Typescribe
