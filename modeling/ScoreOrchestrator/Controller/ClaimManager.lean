/-
Module: Controller.ClaimManager
Purpose: The ResourceClaims of a Workload: upsert, listing and aggregation
  (internal/controller/managers/claim_manager.go, internal/status/aggregate.go).
Trusted boundary: human-reviewed spec
Main exports: upsertResourceClaim, ensureClaims, getClaims, aggregateStatus
-/
import ScoreOrchestrator.Api.Server
import ScoreOrchestrator.Foundation.Text
import ScoreOrchestrator.Status.Conditions

namespace ScoreOrchestrator.Controller

open Foundation

/-! ### Upsert -/

/-- The name of the claim for a resource key. -/
def claimName (workload : Workload) (key : String) : String := workload.metadata.name ++ "-" ++ key

/-- The spec a resource asks for.  It never carries a deprovision policy. -/
def desiredClaimSpec (workload : Workload) (key : String) (resource : ResourceSpec) :
    ResourceClaimSpec where
  workloadRef := { name := workload.metadata.name, ns := workload.metadata.ns }
  key := key
  type := resource.type
  class_ := resource.class_
  params := resource.params

/-- The owner reference of a claim; unlike the plan's it does not block the
owner's deletion. -/
def claimOwnerReference (workload : Workload) : OwnerReference where
  apiVersion := "score.dev/v1b1"
  kind := "Workload"
  name := workload.metadata.name
  uid := workload.metadata.uid
  controller := some true
  blockOwnerDeletion := some false

def newClaim (workload : Workload) (key : String) (desiredSpec : ResourceClaimSpec) :
    ResourceClaim where
  metadata :=
    { name := claimName workload key
      ns := workload.metadata.ns
      labels := .ofList
        [("score.dev/workload", workload.metadata.name), ("score.dev/key", key)]
      ownerReferences := [claimOwnerReference workload] }
  spec := desiredSpec
  status := default

/-- `resourceClaimSpecEqual`.  Of the parameters only their presence counts,
and the deprovision policy is not compared. -/
def resourceClaimSpecEqual (a b : ResourceClaimSpec) : Bool :=
  a.workloadRef = b.workloadRef && a.key = b.key && a.type = b.type &&
    a.class_ = b.class_ && a.id = b.id && a.params.isNone = b.params.isNone

def createClaim (workload : Workload) (key : String) (desiredSpec : ResourceClaimSpec) :
    Client (Except GoError Unit) := do
  let created ← Program.request
    (.create .resourceClaim (newClaim workload key desiredSpec))
  match created with
  | .ok _ => pure (.ok ())
  | .error fault => pure (.error (fault.wrap "failed to create ResourceClaim: "))

def updateClaim (claim : ResourceClaim) (desiredSpec : ResourceClaimSpec) :
    Client (Except GoError Unit) :=
  if resourceClaimSpecEqual claim.spec desiredSpec then pure (.ok ())
  else do
    let updated ← Program.request
      (.update .resourceClaim { claim with spec := desiredSpec })
    match updated with
    | .ok _ => pure (.ok ())
    | .error fault => pure (.error (fault.wrap "failed to update ResourceClaim: "))

/-- `upsertResourceClaim`.  The update path takes whatever object has the name,
whoever owns it. -/
def upsertResourceClaim (workload : Workload) (key : String) (resource : ResourceSpec) :
    Client (Except GoError Unit) := do
  let name := claimName workload key
  let got ← Program.request
    (.get .resourceClaim { ns := workload.metadata.ns, name })
  match got with
  | .ok claim => updateClaim claim (desiredClaimSpec workload key resource)
  | .error fault =>
    if fault.isNotFound then
      createClaim workload key (desiredClaimSpec workload key resource)
    else
      pure (.error (fault.wrap ("failed to get ResourceClaim " ++ name ++ ": ")))

/-- The loop of `EnsureClaims` over the remaining resources. -/
def ensureClaimsFor (workload : Workload) :
    List (String × ResourceSpec) → Client (Except GoError Unit)
  | [] => pure (.ok ())
  | (key, resource) :: rest => do
      let upserted ← upsertResourceClaim workload key resource
      match upserted with
      | .ok () => ensureClaimsFor workload rest
      | .error fault =>
        pure (.error (fault.wrap
          ("failed to upsert ResourceClaim for key \"" ++ key ++ "\": ")))

/-- `EnsureClaims`. -/
def ensureClaims (order : IterOrder) (workload : Workload) : Client (Except GoError Unit) :=
  ensureClaimsFor workload (order.range workload.spec.resources)

/-! ### Listing -/

/-- The value under which a Workload's objects are indexed. -/
def indexKey (workload : Workload) : String := workload.metadata.ns ++ "/" ++ workload.metadata.name

/-- The error texts on which `GetClaims` turns to the label selector. -/
def claimIndexMissing (fault : GoError) : Bool :=
  fault.text = "field label not supported: resourceclaim.workloadRef" ||
    contains fault.text
      "no index with name resourceclaim.workloadRef has been registered"

/-- `GetClaims`. -/
def getClaims (workload : Workload) : Client (Except GoError (List ResourceClaim)) := do
  let listed ← Program.request (.list .resourceClaim
    (.matchingFields "resourceclaim.workloadRef" (indexKey workload)))
  match listed with
  | .ok claims => pure (.ok claims)
  | .error fault =>
    if claimIndexMissing fault then
      Program.request (.list .resourceClaim
        (.inNamespaceMatchingLabels workload.metadata.ns
          [("score.dev/workload", workload.metadata.name)]))
    else pure (.error fault)

/-! ### Aggregation -/

structure ClaimAggregation where
  ready : Bool
  reason : String
  message : String
  claims : List ClaimSummary
deriving DecidableEq, Repr, Inhabited

/-- The summary of a claim; an empty phase shows as Pending. -/
def summarize (claim : ResourceClaim) : ClaimSummary where
  key := claim.spec.key
  phase := if claim.status.phase = .unset then .pending else claim.status.phase
  reason := claim.status.reason
  message := claim.status.message
  outputsAvailable := claim.status.outputsAvailable

/-- A claim that counts as bound. -/
def isBound (claim : ResourceClaim) : Bool :=
  claim.status.phase = .bound && claim.status.outputsAvailable

def isFailed (claim : ResourceClaim) : Bool := claim.status.phase = .failed

/-- `AggregateStatus`, which looks at the listed claims only. -/
def aggregateStatus (claims : List ResourceClaim) : ClaimAggregation :=
  if claims.length = 0 then
    { ready := true
      reason := Conditions.reasonSucceeded
      message := "No resource dependencies"
      claims := [] }
  else if claims.countP isFailed > 0 then
    { ready := false
      reason := Conditions.reasonClaimFailed
      message := Conditions.messageClaimsFailed
      claims := claims.map summarize }
  else if claims.countP isBound = claims.length then
    { ready := true
      reason := Conditions.reasonSucceeded
      message := Conditions.messageAllClaimsReady
      claims := claims.map summarize }
  else
    { ready := false
      reason := Conditions.reasonClaimPending
      message := Conditions.messageClaimsProvisioning
      claims := claims.map summarize }

/-- What the loop of `AggregateClaimStatuses` has come to. -/
structure ClaimTally where
  summaries : List ClaimSummary := []
  boundCount : Nat := 0
  failedCount : Nat := 0
deriving DecidableEq, Repr, Inhabited

/-- The body of the loop.  A Bound claim without outputs counts nowhere. -/
def ClaimTally.add (tally : ClaimTally) (claim : ResourceClaim) : ClaimTally :=
  let tally := { tally with summaries := tally.summaries ++ [summarize claim] }
  match claim.status.phase with
  | .bound =>
    if claim.status.outputsAvailable then
      { tally with boundCount := tally.boundCount + 1 }
    else tally
  | .failed => { tally with failedCount := tally.failedCount + 1 }
  | _ => tally

/-- `AggregateClaimStatuses` of the status package, the same code once more. -/
def aggregateClaimStatuses (claims : List ResourceClaim) : ClaimAggregation :=
  if claims.length = 0 then
    { ready := true
      reason := Conditions.reasonSucceeded
      message := "No resource dependencies"
      claims := [] }
  else
    let tally := claims.foldl ClaimTally.add {}
    if tally.failedCount > 0 then
      { ready := false
        reason := Conditions.reasonClaimFailed
        message := Conditions.messageClaimsFailed
        claims := tally.summaries }
    else if tally.boundCount = claims.length then
      { ready := true
        reason := Conditions.reasonSucceeded
        message := Conditions.messageAllClaimsReady
        claims := tally.summaries }
    else
      { ready := false
        reason := Conditions.reasonClaimPending
        message := Conditions.messageClaimsProvisioning
        claims := tally.summaries }

/-- The aggregation is ready exactly when every listed claim is bound. -/
theorem aggregateStatus_ready {claims : List ResourceClaim} :
    (aggregateStatus claims).ready = true ↔ ∀ claim ∈ claims, isBound claim := by
  unfold aggregateStatus
  split
  next none =>
    simp [List.length_eq_zero_iff.mp none]
  next =>
    split
    next failed =>
      obtain ⟨claim, member, hasFailed⟩ := List.countP_pos_iff.mp failed
      refine ⟨by simp, fun bound => ?_⟩
      have both := bound claim member
      simp [isBound, isFailed] at both hasFailed
      simp [both.1] at hasFailed
    next =>
      split
      next all => simpa using List.countP_eq_length.mp all
      next some => simpa using fun bound => some (List.countP_eq_length.mpr bound)

/-- `UpdateWorkloadStatusFromAggregation`. -/
def updateWorkloadStatusFromAggregation (now : Time) (workload : Workload)
    (aggregation : ClaimAggregation) : Workload :=
  { workload with
    status :=
      { workload.status with
        claims := aggregation.claims
        conditions := Conditions.setCondition now Conditions.claimsReady
          (Conditions.statusOf aggregation.ready) aggregation.reason
          aggregation.message workload.status.conditions } }

end ScoreOrchestrator.Controller
