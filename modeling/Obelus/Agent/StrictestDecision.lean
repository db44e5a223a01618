import Mathlib.Data.List.Nodup
import Mathlib.Data.List.Perm.Basic
import Obelus.Agent.Operations

/-!
# The strictest decision

The results of the inspectors are combined one by one.  Each request ends in one list,
which the strictest of the results decides.
-/

namespace Obelus.Agent

open List
open PermissionCheckResult (addDecision find)

variable {ι : Type}

inductive Decision
  | approved
  | needsApproval
  | denied
  deriving DecidableEq

namespace PermissionCheckResult

def decided (result : PermissionCheckResult ι) : Decision → List (ToolRequest ι)
  | .approved => result.approved
  | .needsApproval => result.needsApproval
  | .denied => result.denied

end PermissionCheckResult

namespace InspectionAction

def isDeny : InspectionAction → Bool
  | .deny => true
  | _ => false

def isRequireApproval : InspectionAction → Bool
  | .requireApproval _ => true
  | _ => false

end InspectionAction

namespace InspectionResult

def isPermission (result : InspectionResult) : Bool :=
  result.inspectorName = "permission"

end InspectionResult

/-- The results that count for a request: the first of the permission inspector, and all of
the other inspectors. -/
def countedResults (results : List InspectionResult) (id : String) : List InspectionResult :=
  ((results.filter InspectionResult.isPermission).find? fun result =>
    result.toolRequestId = id).toList ++
  (results.filter fun result => ¬result.isPermission).filter fun result =>
    result.toolRequestId = id

/-- The permission inspector has a result for the request. -/
def hasPermissionResult (results : List InspectionResult) (id : String) : Bool :=
  results.any fun result => result.isPermission && result.toolRequestId = id

/-- The strictest of the results that count. -/
def strictestDecision (results : List InspectionResult) (id : String) : Decision :=
  if (countedResults results id).any fun result => result.action.isDeny then .denied
  else if !hasPermissionResult results id ||
      (countedResults results id).any fun result => result.action.isRequireApproval then
    .needsApproval
  else .approved

/-- A result makes the decision on its request stricter. -/
def Decision.stricter (decision : Decision) : InspectionAction → Decision
  | .deny => .denied
  | .requireApproval _ => if decision = .denied then .denied else .needsApproval
  | .allow => decision

/-- The decision after another inspector's result. -/
def Decision.after (decisions : String → Decision) (found : InspectionResult) (id : String) :
    Decision :=
  if id = found.toolRequestId then (decisions id).stricter found.action else decisions id

/-- The decision of the permission inspector. -/
def permissionDecision (permissionResults : List InspectionResult) (id : String) : Decision :=
  match permissionResults.find? fun found => found.toolRequestId = id with
  | some found => Decision.approved.stricter found.action
  | none => .needsApproval

/-- Each request is once in the list of its decision. -/
structure Decides (requests : List (ToolRequest ι)) (decisions : String → Decision)
    (result : PermissionCheckResult ι) : Prop where
  nodup : ∀ decision, (result.decided decision).Nodup
  mem_iff : ∀ decision request, request ∈ result.decided decision ↔
    request ∈ requests ∧ decisions request.id = decision

variable {requests : List (ToolRequest ι)} {decisions : String → Decision}
  {result : PermissionCheckResult ι}

theorem eq_of_id_eq (distinct : (requests.map ToolRequest.id).Nodup) {first second : ToolRequest ι}
    (isFirst : first ∈ requests) (isSecond : second ∈ requests) (sameId : first.id = second.id) :
    first = second :=
  inj_on_of_nodup_map distinct isFirst isSecond sameId

/-- The permission inspector's loop over the requests. -/
theorem decides_permission (distinct : (requests.map ToolRequest.id).Nodup)
    (permissionResults : List InspectionResult) :
    Decides requests (permissionDecision permissionResults)
      (requests.foldl (addDecision permissionResults) {}) := by
  induction requests using reverseRecOn with
  | nil =>
    refine ⟨fun decision => ?_, fun decision request => ?_⟩
    · cases decision <;> exact nodup_nil
    · cases decision <;> simp [PermissionCheckResult.decided]
  | append_singleton earlier request ih =>
    rw [map_append, nodup_append] at distinct
    obtain ⟨nodup, mem_iff⟩ := ih distinct.1
    have isNew : request ∉ earlier := fun member =>
      distinct.2.2 _ (mem_map_of_mem member) _ (mem_singleton.mpr rfl) rfl
    rw [foldl_append, foldl_cons, foldl_nil]
    generalize earlier.foldl (addDecision permissionResults) {} = result
      at nodup mem_iff
    have added (decision : Decision) :
        (addDecision permissionResults result request).decided decision =
          result.decided decision ++
            if permissionDecision permissionResults request.id = decision then [request]
            else [] := by
      unfold addDecision permissionDecision
      cases permissionResults.find? fun found => found.toolRequestId = request.id with
      | none => cases decision <;> simp [PermissionCheckResult.decided]
      | some found =>
        obtain ⟨id, action, name⟩ := found
        cases action <;> cases decision <;>
          simp [PermissionCheckResult.decided, Decision.stricter]
    refine ⟨fun decision => ?_, fun decision other => ?_⟩
    · rw [added]
      split
      · refine nodup_append.mpr ⟨nodup decision, nodup_singleton _, ?_⟩
        rintro other member _ (isLast : _ ∈ [request]) rfl
        obtain rfl := mem_singleton.mp isLast
        exact isNew ((mem_iff decision _).mp member).1
      · rw [append_nil]
        exact nodup decision
    · rw [added, mem_append, mem_iff, mem_append, mem_singleton]
      split
      · next isDecision =>
        rw [mem_singleton]
        constructor
        · rintro (⟨member, same⟩ | rfl)
          · exact ⟨.inl member, same⟩
          · exact ⟨.inr rfl, isDecision⟩
        · rintro ⟨member | rfl, same⟩
          · exact .inl ⟨member, same⟩
          · exact .inr rfl
      · next notDecision =>
        constructor
        · rintro (⟨member, same⟩ | absent)
          · exact ⟨.inl member, same⟩
          · cases absent
        · rintro ⟨member | rfl, same⟩
          · exact .inl ⟨member, same⟩
          · exact absurd same notDecision

variable {request : ToolRequest ι} {blocked : Bool} {request? : Option (ToolRequest ι)}
  {listed : List (ToolRequest ι)}

/-- The map of all requests finds each by its id. -/
theorem Decides.find_eq_some_iff (decides : Decides requests decisions result)
    (distinct : (requests.map ToolRequest.id).Nodup) {id : String} :
    result.find id = some request ↔ request ∈ requests ∧ request.id = id := by
  have members (other : ToolRequest ι) :
      other ∈ (result.approved ++ result.needsApproval ++ result.denied).reverse ↔
        other ∈ requests := by
    have approved := decides.mem_iff .approved other
    have needsApproval := decides.mem_iff .needsApproval other
    have denied := decides.mem_iff .denied other
    simp only [PermissionCheckResult.decided] at approved needsApproval denied
    rw [mem_reverse, mem_append, mem_append, approved, needsApproval, denied]
    cases decisions other.id <;> simp
  constructor
  · intro found
    have isId := find?_some found
    exact ⟨(members request).mp (mem_of_find?_eq_some found), of_decide_eq_true isId⟩
  · rintro ⟨member, rfl⟩
    rw [find]
    cases found : (result.approved ++ result.needsApproval ++ result.denied).reverse.find?
      fun other => other.id = request.id with
    | none =>
      have absent := find?_eq_none.mp found request ((members request).mpr member)
      simp at absent
    | some other =>
      have sameId : other.id = request.id := by simpa using find?_some found
      rw [eq_of_id_eq distinct ((members other).mp (mem_of_find?_eq_some found)) member sameId]

/-- The request with the id is put at the end unless something blocks it. -/
def insertUnless (blocked : Bool) (request? : Option (ToolRequest ι))
    (listed : List (ToolRequest ι)) : List (ToolRequest ι) :=
  match request? with
  | some request => if blocked then listed else listed ++ [request]
  | none => listed

theorem mem_insertUnless : request ∈ insertUnless blocked request? listed ↔
      request ∈ listed ∨ (blocked = false ∧ request? = some request) := by
  cases request? with
  | none => simp [insertUnless]
  | some other => cases blocked <;> simp [insertUnless, eq_comm]

theorem nodup_insertUnless (nodup : listed.Nodup)
    (blocks : ∀ request ∈ listed, request? = some request → blocked = true) :
    (insertUnless blocked request? listed).Nodup := by
  cases request? with
  | none => exact nodup
  | some request =>
    cases blocked with
    | true => exact nodup
    | false =>
      have isNew : request ∉ listed := fun member => Bool.noConfusion (blocks request member rfl)
      rw [insertUnless, ← concat_eq_append]
      exact nodup.concat isNew

theorem any_id_iff {id : String} :
    (listed.any fun request => request.id = id) = true ↔ ∃ request ∈ listed, request.id = id := by
  simp

/-- A list of requests has the id of a request where it has the request. -/
theorem any_id_eq_true_iff (distinct : (requests.map ToolRequest.id).Nodup)
    (subset : listed ⊆ requests) (member : request ∈ requests) :
    (listed.any fun other => other.id = request.id) = true ↔ request ∈ listed := by
  rw [any_id_iff]
  constructor
  · rintro ⟨other, isListed, sameId⟩
    rwa [← eq_of_id_eq distinct (subset isListed) member sameId]
  · exact fun isListed => ⟨request, isListed, rfl⟩

/-- A list that loses the requests of the id. -/
theorem mem_others_iff {action : InspectionAction} {id name : String} {decision : Decision}
    (never : ∀ earlier : Decision, earlier.stricter action ≠ decision) :
    (request ∈ requests ∧ decisions request.id = decision) ∧ request.id ≠ id ↔
      request ∈ requests ∧ Decision.after decisions ⟨id, action, name⟩ request.id = decision := by
  rw [Decision.after]
  by_cases sameId : request.id = id
  · simp [sameId, never]
  · simp [sameId]

section Override

variable (distinct : (requests.map ToolRequest.id).Nodup) {all : String → Option (ToolRequest ι)}
  (isAll : ∀ id request, all id = some request ↔ request ∈ requests ∧ request.id = id)

include distinct isAll

section

variable (decides : Decides requests decisions result)
include decides

theorem Decides.override_deny (id name : String) :
    Decides requests (Decision.after decisions ⟨id, .deny, name⟩)
      (PermissionCheckResult.override all result ⟨id, .deny, name⟩) := by
  obtain ⟨nodup, mem_iff⟩ := decides
  obtain ⟨approved, needs, denied⟩ := result
  have inApproved (request : ToolRequest ι) : request ∈ approved ↔ _ := mem_iff .approved request
  have inNeeds (request : ToolRequest ι) : request ∈ needs ↔ _ := mem_iff .needsApproval request
  have inDenied (request : ToolRequest ι) : request ∈ denied ↔ _ := mem_iff .denied request
  have deniedSubset : denied ⊆ requests := fun request member => ((inDenied request).mp member).1
  constructor
  · intro decision
    cases decision with
    | approved => exact (nodup .approved).filter _
    | needsApproval => exact (nodup .needsApproval).filter _
    | denied =>
      apply nodup_insertUnless (nodup .denied)
      intro request member isRequest
      exact any_id_iff.mpr ⟨request, member, ((isAll id request).mp isRequest).2⟩
  · intro decision request
    cases decision with
    | approved =>
      change request ∈ approved.filter _ ↔ _
      rw [mem_filter, inApproved, decide_eq_true_iff]
      exact mem_others_iff fun _ => Decision.noConfusion
    | needsApproval =>
      change request ∈ needs.filter _ ↔ _
      rw [mem_filter, inNeeds, decide_eq_true_iff]
      exact mem_others_iff fun _ => Decision.noConfusion
    | denied =>
      change request ∈ insertUnless (denied.any fun other => other.id = id) (all id) denied ↔ _
      rw [mem_insertUnless, isAll, Decision.after]
      by_cases sameId : request.id = id
      · subst sameId
        by_cases member : request ∈ requests
        · have isIn := any_id_eq_true_iff distinct deniedSubset member
          rw [Bool.eq_false_iff, ne_eq, isIn]
          simp [member, Decision.stricter, em]
        · simp [member, inDenied]
      · rw [inDenied]
        simp [sameId]

theorem Decides.override_requireApproval (message : Option String) (id name : String) :
    Decides requests (Decision.after decisions ⟨id, .requireApproval message, name⟩)
      (PermissionCheckResult.override all result ⟨id, .requireApproval message, name⟩) := by
  obtain ⟨nodup, mem_iff⟩ := decides
  obtain ⟨approved, needs, denied⟩ := result
  have inApproved (request : ToolRequest ι) : request ∈ approved ↔ _ := mem_iff .approved request
  have inNeeds (request : ToolRequest ι) : request ∈ needs ↔ _ := mem_iff .needsApproval request
  have inDenied (request : ToolRequest ι) : request ∈ denied ↔ _ := mem_iff .denied request
  have needsSubset : needs ⊆ requests := fun request member => ((inNeeds request).mp member).1
  have deniedSubset : denied ⊆ requests := fun request member => ((inDenied request).mp member).1
  have stricter (earlier : Decision) : earlier.stricter (.requireApproval message) =
      if earlier = .denied then .denied else .needsApproval := rfl
  constructor
  · intro decision
    cases decision with
    | approved => exact (nodup .approved).filter _
    | denied => exact nodup .denied
    | needsApproval =>
      apply nodup_insertUnless (nodup .needsApproval)
      intro request member isRequest
      exact Bool.or_eq_true_iff.mpr
        (.inr (any_id_iff.mpr ⟨request, member, ((isAll id request).mp isRequest).2⟩))
  · intro decision request
    cases decision with
    | approved =>
      change request ∈ approved.filter _ ↔ _
      rw [mem_filter, inApproved, decide_eq_true_iff]
      apply mem_others_iff
      intro earlier
      rw [stricter]
      split <;> exact Decision.noConfusion
    | denied =>
      change request ∈ denied ↔ _
      rw [inDenied, Decision.after]
      by_cases sameId : request.id = id
      · split <;> simp_all
      · rw [if_neg sameId]
    | needsApproval =>
      change request ∈ insertUnless ((denied.any fun other => other.id = id) ||
        needs.any fun other => other.id = id) (all id) needs ↔ _
      rw [mem_insertUnless, isAll, Decision.after, stricter]
      by_cases sameId : request.id = id
      · subst sameId
        by_cases member : request ∈ requests
        · have isDenied := any_id_eq_true_iff distinct deniedSubset member
          have isNeeded := any_id_eq_true_iff distinct needsSubset member
          rw [Bool.eq_false_iff, ne_eq, Bool.or_eq_true_iff, isDenied, isNeeded, inDenied, inNeeds]
          cases decisions request.id <;> simp [member]
        · simp [member, inNeeds]
      · rw [inNeeds]
        simp [sameId]

/-- Another inspector's result makes the decision on its request stricter. -/
theorem Decides.override (found : InspectionResult) :
    Decides requests (Decision.after decisions found)
      (PermissionCheckResult.override all result found) := by
  obtain ⟨id, action, name⟩ := found
  cases action with
  | allow =>
    have same : Decision.after decisions ⟨id, .allow, name⟩ = decisions := by
      funext other
      simp [Decision.after, Decision.stricter]
    rw [same]
    exact decides
  | deny => exact decides.override_deny distinct isAll id name
  | requireApproval message => exact decides.override_requireApproval distinct isAll message id name

/-- The loop over the other inspectors' results. -/
theorem Decides.overrides (results : List InspectionResult) :
    Decides requests (results.foldl Decision.after decisions)
      (results.foldl (PermissionCheckResult.override all) result) := by
  induction results generalizing decisions result with
  | nil => exact decides
  | cons found rest ih => exact ih (decides.override distinct isAll found)

end

end Override

/-- The results that are not of the permission inspector decide like the ones for the id. -/
theorem foldl_after (results : List InspectionResult) (decisions : String → Decision)
    (id : String) : results.foldl Decision.after decisions id =
      ((results.filter fun found => found.toolRequestId = id).map InspectionResult.action).foldl
        Decision.stricter (decisions id) := by
  induction results generalizing decisions with
  | nil => rfl
  | cons found rest ih =>
    rw [foldl_cons, ih, Decision.after]
    by_cases sameId : id = found.toolRequestId
    · simp [sameId]
    · simp [sameId, Ne.symm sameId]

theorem foldl_stricter (actions : List InspectionAction) (decision : Decision) :
    actions.foldl Decision.stricter decision =
      if decision = .denied ∨ actions.any InspectionAction.isDeny then .denied
      else if decision = .needsApproval ∨ actions.any InspectionAction.isRequireApproval then
        .needsApproval
      else .approved := by
  induction actions generalizing decision with
  | nil => cases decision <;> simp
  | cons action rest ih =>
    rw [foldl_cons, ih]
    cases action <;> cases decision <;>
      simp [Decision.stricter, InspectionAction.isDeny, InspectionAction.isRequireApproval]

/-- The decision after all results is the strictest. -/
theorem foldl_after_permissionDecision (results : List InspectionResult) (id : String) :
    (results.filter fun found => ¬found.isPermission).foldl Decision.after
      (permissionDecision (results.filter InspectionResult.isPermission)) id =
        strictestDecision results id := by
  rw [foldl_after, foldl_stricter, strictestDecision, countedResults, permissionDecision]
  have hasResult : hasPermissionResult results id =
      ((results.filter InspectionResult.isPermission).find? fun found =>
        found.toolRequestId = id).isSome := by
    rw [Bool.eq_iff_iff, hasPermissionResult]
    simp
  rw [hasResult]
  cases (results.filter InspectionResult.isPermission).find? fun found =>
    found.toolRequestId = id with
  | none => simp [any_map, Function.comp_def]
  | some found =>
    obtain ⟨foundId, action, name⟩ := found
    cases action <;>
      simp [Decision.stricter, InspectionAction.isDeny, InspectionAction.isRequireApproval,
        Function.comp_def]

theorem decides_processInspectionResults (distinct : (requests.map ToolRequest.id).Nodup)
    (results : List InspectionResult) :
    Decides requests (strictestDecision results) (processInspectionResults requests results) := by
  have permission := decides_permission distinct (results.filter InspectionResult.isPermission)
  have decides := permission.overrides distinct
    (fun _ _ => permission.find_eq_some_iff distinct)
    (results.filter fun found => ¬found.isPermission)
  rw [funext (foldl_after_permissionDecision results)] at decides
  have isResult : processInspectionResults requests results =
      (results.filter fun found => ¬found.isPermission).foldl
        (PermissionCheckResult.override (requests.foldl (addDecision
          (results.filter InspectionResult.isPermission)) {}).find)
        (requests.foldl (addDecision
          (results.filter InspectionResult.isPermission)) {}) := by
    simp only [InspectionResult.isPermission, decide_eq_true_eq]
    rfl
  rw [isResult]
  exact decides

/-- The decision does not depend on the order of the other inspectors' results. -/
theorem strictestDecision_reordered {results reordered : List InspectionResult}
    (samePermission : reordered.filter InspectionResult.isPermission =
      results.filter InspectionResult.isPermission)
    (sameOthers : (reordered.filter fun found => ¬found.isPermission).Perm
      (results.filter fun found => ¬found.isPermission)) (id : String) :
    strictestDecision reordered id = strictestDecision results id := by
  have counted : (countedResults reordered id).Perm (countedResults results id) := by
    rw [countedResults, samePermission]
    exact (sameOthers.filter _).append_left _
  have hasResult : hasPermissionResult reordered id = hasPermissionResult results id := by
    rw [hasPermissionResult, hasPermissionResult, ← any_filter, ← any_filter, samePermission]
  rw [strictestDecision, strictestDecision, hasResult, counted.any_eq, counted.any_eq]

/-- Each request is once in the list that the strictest result decides, and the order of the
other inspectors' results changes no list as a set. -/
theorem processInspectionResults_strictest
    (distinct : (requests.map ToolRequest.id).Nodup) (results : List InspectionResult) :
    (∀ decision, ((processInspectionResults requests results).decided decision).Perm
      (requests.filter fun request => strictestDecision results request.id = decision)) ∧
    ∀ reordered : List InspectionResult,
      reordered.filter InspectionResult.isPermission =
        results.filter InspectionResult.isPermission →
      (reordered.filter fun found => ¬found.isPermission).Perm
        (results.filter fun found => ¬found.isPermission) →
      ∀ decision request,
        request ∈ (processInspectionResults requests reordered).decided decision ↔
          request ∈ (processInspectionResults requests results).decided decision := by
  have decides := decides_processInspectionResults distinct
  refine ⟨fun decision => ?_, ?_⟩
  · have isNodup := (Nodup.of_map _ distinct).filter fun request =>
      strictestDecision results request.id = decision
    refine (perm_ext_iff_of_nodup ((decides results).nodup decision) isNodup).mpr ?_
    intro request
    rw [(decides results).mem_iff, mem_filter, decide_eq_true_iff]
  · intro reordered samePermission sameOthers decision request
    rw [(decides reordered).mem_iff, (decides results).mem_iff,
      strictestDecision_reordered samePermission sameOthers]

/-- An inspector denies the second of two requests that the permission inspector allows. -/
theorem processInspectionResults_denied : let requests : List (ToolRequest Unit) :=
      [{ id := "1", toolCall := .error "" }, { id := "2", toolCall := .error "" }]
    let results : List InspectionResult :=
      [⟨"2", .deny, "security"⟩, ⟨"1", .allow, "permission"⟩, ⟨"2", .allow, "permission"⟩]
    ∀ decision, ((processInspectionResults requests results).decided decision).Perm
      (requests.filter fun request => strictestDecision results request.id = decision) :=
  (processInspectionResults_strictest (by decide) _).1

end Obelus.Agent
