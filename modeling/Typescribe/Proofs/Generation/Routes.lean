import Mathlib.Data.List.Basic
import Typescribe.Generation.ServiceModule
import Typescribe.Proofs.Text.Casing

/-!
# Routes of procedures

A route is read back into the stem of the service and the name of the procedure: the slash between
them stands in neither, and both are read from kebab case. Two routes are therefore equal exactly
if the procedures have the same name and the services the same stem.
-/

namespace Typescribe.Service

open Text

/-- The stem of a service's name is what is left of it without one ending `Service`. -/
def IsStem (name stem : String) : Prop :=
  name = stem ++ "Service" ∨ stem = name ∧ ¬ "Service".toList <:+ name.toList

/-- Every name has one stem, which the route is made from. -/
theorem isStem_iff {name stem : String} :
    IsStem name stem ↔ String.ofList (dropEnding "Service".toList name.toList) = stem := by
  rw [IsStem, dropEnding]
  split
  next ending =>
    obtain ⟨front, split⟩ := List.isSuffixOf_iff_suffix.mp ending
    have taken : name.toList.take (name.toList.length - "Service".toList.length) = front := by
      simp [← split]
    rw [taken]
    constructor
    · rintro (rfl | ⟨-, noEnding⟩)
      · rw [String.toList_append, List.append_left_inj] at split
        rw [split, String.ofList_toList]
      · exact absurd ⟨front, split⟩ noEnding
    · rintro rfl
      left
      rw [← String.toList_inj, String.toList_append, String.toList_ofList, split]
  next ending =>
    rw [List.isSuffixOf_iff_suffix] at ending
    rw [String.ofList_toList]
    constructor
    · rintro (rfl | ⟨same, -⟩)
      · exact absurd ⟨stem.toList, String.toList_append.symm⟩ ending
      · exact same.symm
    · rintro rfl
      exact .inr ⟨rfl, ending⟩

theorem exists_isStem (name : String) : ∃ stem, IsStem name stem :=
  ⟨_, isStem_iff.mpr rfl⟩

theorem IsStem.isPrefix {name stem : String} (isStem : IsStem name stem) :
    stem.toList <+: name.toList := by
  rcases isStem with rfl | ⟨rfl, -⟩
  · exact ⟨"Service".toList, String.toList_append.symm⟩
  · exact List.prefix_refl _

/-- The stem of a proper name is empty or a proper name. -/
theorem IsStem.eq_empty_or_isProperName {name stem : String} (isStem : IsStem name stem)
    (proper : isProperName name = true) : stem = "" ∨ isProperName stem = true := by
  obtain ⟨first, rest, chars, capital, words⟩ := isProperName_iff.mp proper
  obtain ⟨behind, split⟩ := isStem.isPrefix
  rw [chars] at split
  cases front : stem.toList with
  | nil => exact .inl (String.toList_eq_nil_iff.mp front)
  | cons head tail =>
    rw [front] at split
    obtain ⟨rfl, rfl⟩ := List.cons.inj split
    have kept := fun c listed => words c (List.mem_append_left behind listed)
    exact .inr (isProperName_iff.mpr ⟨head, tail, front, capital, kept⟩)

/-- The stem of a proper name is read back from its kebab case, which has no slash. -/
theorem IsStem.unkebab_kebab {name stem : String} (isStem : IsStem name stem)
    (proper : isProperName name = true) :
    unkebab (kebab stem) = stem ∧ '/' ∉ (kebab stem).toList := by
  rcases isStem.eq_empty_or_isProperName proper with rfl | properStem
  · decide
  · exact ⟨Text.unkebab_kebab properStem, slash_not_mem_kebab properStem⟩

theorem IsStem.toList_route {name stem : String} (isStem : IsStem name stem) (rpc : String) :
    (route name rpc).toList = (kebab stem).toList ++ '/' :: (kebab rpc).toList := by
  rw [route, isStem_iff.mp isStem, String.toList_append, String.toList_append, List.append_assoc]
  rfl

/-- For proper names, two routes are equal exactly if the procedures have the same name and the
services the same stem, and every name is read back from its kebab case. -/
theorem route_eq_iff {service other rpc call : String} (properService : isProperName service = true)
    (properOther : isProperName other = true) (properRpc : isProperName rpc = true)
    (properCall : isProperName call = true) :
    (route service rpc = route other call ↔
        rpc = call ∧ ∃ stem, IsStem service stem ∧ IsStem other stem) ∧
      ∀ name ∈ [service, other, rpc, call], unkebab (kebab name) = name := by
  have readBack : ∀ name ∈ [service, other, rpc, call], unkebab (kebab name) = name := by
    simp [unkebab_kebab, properService, properOther, properRpc, properCall]
  refine ⟨?_, readBack⟩
  obtain ⟨stem, isStem⟩ := exists_isStem service
  obtain ⟨otherStem, isOtherStem⟩ := exists_isStem other
  obtain ⟨stemBack, stemSlash⟩ := isStem.unkebab_kebab properService
  obtain ⟨otherBack, -⟩ := isOtherStem.unkebab_kebab properOther
  -- Neither side of a route has a slash, so that routes are equal side by side.
  have sides : route service rpc = route other call ↔
      kebab stem = kebab otherStem ∧ kebab rpc = kebab call := by
    rw [← String.toList_inj, isStem.toList_route, isOtherStem.toList_route,
      List.append_cons_inj_of_notMem stemSlash (slash_not_mem_kebab properRpc), String.toList_inj,
      String.toList_inj]
    simp
  rw [sides]
  constructor
  · rintro ⟨sameStem, sameRpc⟩
    have stems : stem = otherStem := by rw [← stemBack, sameStem, otherBack]
    have rpcs : rpc = call := by
      rw [← unkebab_kebab properRpc, sameRpc, unkebab_kebab properCall]
    exact ⟨rpcs, stem, isStem, stems ▸ isOtherStem⟩
  · rintro ⟨rfl, common, isCommon, isOtherCommon⟩
    have stems : stem = otherStem := by
      rw [← isStem_iff.mp isStem, isStem_iff.mp isCommon, ← isStem_iff.mp isOtherCommon,
        isStem_iff.mp isOtherStem]
    exact ⟨congrArg kebab stems, rfl⟩

/-- Names with runs of capitals, digits and underscores, and a service whose stem is empty. -/
theorem http_routes_apart : route "Service" "GetURL_2" ≠ route "HTTPService" "GetURL_2" ∧
    route "HTTP" "GetURL_2" = route "HTTPService" "GetURL_2" ∧
      unkebab (kebab "GetURL_2") = "GetURL_2" := by
  obtain ⟨apart, back⟩ := @route_eq_iff "Service" "HTTPService" "GetURL_2" "GetURL_2" (by decide)
    (by decide) (by decide) (by decide)
  obtain ⟨same, -⟩ := @route_eq_iff "HTTP" "HTTPService" "GetURL_2" "GetURL_2" (by decide)
    (by decide) (by decide) (by decide)
  refine ⟨?_, same.mpr ⟨rfl, "HTTP", .inr ⟨rfl, by decide⟩, .inl (by decide)⟩, back _ (by simp)⟩
  rw [ne_eq, apart]
  rintro ⟨-, stem, ofService, ofOther⟩
  have stems := (isStem_iff.mp ofService).trans (isStem_iff.mp ofOther).symm
  exact absurd stems (by decide)

end Typescribe.Service
