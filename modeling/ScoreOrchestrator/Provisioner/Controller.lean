/-
Module: Provisioner.Controller
Purpose: The controller that drives a ResourceClaim through its phases with the
  strategy of its type (internal/controller/provisioner_controller.go,
  internal/controller/provisioner_lifecycle.go and
  internal/provisioner/outputs.go).
Trusted boundary: human-reviewed spec
Main exports: shouldReconcile, handleProvisioning, handleDeletion, reconcileClaim
-/
import ScoreOrchestrator.Controller.Pipeline
import ScoreOrchestrator.Provisioner.Strategies

namespace ScoreOrchestrator.Provisioner

open Foundation
open Controller (ReconcileResult)

/-! ### Outputs -/

/-- Is at least one of the outputs set? -/
def hasOutput (outputs : ResourceClaimOutputs) : Bool :=
  let hasSecretRef := outputs.secretRef.any fun secretRef => secretRef.name ≠ ""
  let hasConfigMapRef := outputs.configMapRef.any fun configMapRef => configMapRef.name ≠ ""
  let hasURI := outputs.uri.any fun uri => uri ≠ ""
  let hasImage := outputs.image.any fun image => image ≠ ""
  let hasCert := outputs.cert.any fun cert =>
    cert.secretName.isSome || cert.data.rows.length > 0
  hasSecretRef || hasConfigMapRef || hasURI || hasImage || hasCert

/-- `ValidateOutputs`. -/
def validateOutputs : Option ResourceClaimOutputs → Except GoError Unit
  | none => .error { text := "outputs cannot be nil" }
  | some outputs =>
    if hasOutput outputs then .ok ()
    else .error { text := "at least one output field (secretRef, configMapRef, " ++
      "uri, image, or cert) must be set" }

/-! ### Lifecycle -/

def resourceClaimFinalizer : String := "provisioner.score.dev/finalizer"

/-- `SetPhase`. -/
def setPhase (now : Time) (claim : ResourceClaim) (phase : ResourceClaimPhase)
    (reason message : String) : ResourceClaim :=
  { claim with
    status :=
      { claim.status with
        lastTransitionTime :=
          if claim.status.phase ≠ phase then some now
          else claim.status.lastTransitionTime
        phase := phase
        reason := reason
        message := message
        observedGeneration := claim.metadata.generation } }

/-- `SetPhase` for a phase without outputs. -/
def setUnbound (phase : ResourceClaimPhase) (now : Time) (claim : ResourceClaim)
    (reason message : String) : ResourceClaim :=
  let updated := setPhase now claim phase reason message
  { updated with
    status := { updated.status with outputsAvailable := false, outputs := none } }

/-- `SetPending`. -/
def setPending := setUnbound .pending

/-- `SetClaiming`. -/
def setClaiming := setUnbound .claiming

/-- `SetFailed`. -/
def setFailed := setUnbound .failed

/-- `SetBound`. -/
def setBound (now : Time) (claim : ResourceClaim) (outputs : Option ResourceClaimOutputs) :
    ResourceClaim :=
  let updated := setPhase now claim .bound Conditions.reasonSucceeded
    "Resource successfully provisioned"
  { updated with status := { updated.status with outputs, outputsAvailable := true } }

/-- `HasFinalizer`. -/
def hasFinalizer (claim : ResourceClaim) : Bool :=
  claim.metadata.finalizers.contains resourceClaimFinalizer

/-- `AddFinalizer`. -/
def addFinalizer (claim : ResourceClaim) : ResourceClaim :=
  if hasFinalizer claim then claim
  else
    { claim with
      metadata :=
        { claim.metadata with
          finalizers := claim.metadata.finalizers ++ [resourceClaimFinalizer] } }

/-- `RemoveFinalizer`. -/
def removeFinalizer (claim : ResourceClaim) : ResourceClaim :=
  { claim with
    metadata :=
      { claim.metadata with
        finalizers := claim.metadata.finalizers.filter (· ≠ resourceClaimFinalizer) } }

/-- `ShouldReconcile`. -/
def shouldReconcile (claim : ResourceClaim) : Bool :=
  if claim.isBeingDeleted && !hasFinalizer claim then false
  else if claim.isBeingDeleted then true
  else if claim.status.phase = .bound &&
      claim.status.observedGeneration = claim.metadata.generation then false
  else true

/-- `GetReconcileResult`, with delays in seconds. -/
def getReconcileResult (claim : ResourceClaim) (err : Option GoError) :
    ReconcileResult × Option GoError :=
  match err with
  | some fault => ({ requeueAfter := 120 }, some fault)
  | none =>
    match claim.status.phase with
    | .pending => ({ requeueAfter := 30 }, none)
    | .claiming => ({ requeueAfter := 60 }, none)
    | .bound => ({ requeueAfter := 600 }, none)
    | .failed => ({ requeueAfter := 300 }, none)
    | _ => ({}, none)

/-! ### Phases -/

/-- What a reconcile finds besides the cluster: the registered strategies and a
reading of the clock. -/
structure ProvisionerSettings where
  strategySelector : Selector
  now : Time

/-- What a phase handler leaves: the claim in memory, a result and an error. -/
abbrev Handled := ResourceClaim × ReconcileResult × Option GoError

/-- Call `Provision`, check the outputs and bind the claim.  `failure` opens the
message of a claim whose `Provision` failed. -/
def provisionAndBind (settings : ProvisionerSettings) (strategy : Strategy) (claim : ResourceClaim)
    (failure : String) : Client Handled := do
  let provisioned ← strategy.provision claim
  match provisioned with
  | .error fault =>
    pure (setFailed settings.now claim Conditions.reasonClaimFailed
      (failure ++ fault.text), {}, some fault)
  | .ok outputs =>
    match validateOutputs outputs with
    | .error fault =>
      pure (setFailed settings.now claim Conditions.reasonProjectionError
        ("Invalid outputs: " ++ fault.text), {}, some fault)
    | .ok () => pure (setBound settings.now claim outputs, {}, none)

/-- `handlePendingPhase`. -/
def handlePendingPhase (settings : ProvisionerSettings) (claim : ResourceClaim)
    (strategy : Strategy) : Client Handled :=
  provisionAndBind settings strategy claim "Provisioning failed: "

/-- `handleClaimingPhase`. -/
def handleClaimingPhase (settings : ProvisionerSettings) (claim : ResourceClaim)
    (strategy : Strategy) : Client Handled := do
  let (status, err) ← strategy.getStatus claim
  match err with
  | some fault =>
    pure (setFailed settings.now claim Conditions.reasonClaimFailed
      ("Status check failed: " ++ fault.text), {}, some fault)
  | none =>
    if status.phase = .bound then
      provisionAndBind settings strategy claim "Failed to get outputs: "
    else if status.phase = .failed then
      pure (setFailed settings.now claim status.reason status.message, {},
        some { text := "provisioning failed: " ++ status.message })
    else pure (claim, { requeueAfter := 10 }, none)

/-- `handleBoundPhase`. -/
def handleBoundPhase (settings : ProvisionerSettings) (claim : ResourceClaim)
    (strategy : Strategy) : Client Handled := do
  let (status, err) ← strategy.getStatus claim
  match err with
  | some fault => pure (claim, {}, some fault)
  | none =>
    if status.phase = .failed then
      pure (setFailed settings.now claim status.reason status.message, {},
        some { text := "resource became unhealthy: " ++ status.message })
    else pure (claim, {}, none)

/-- `handleFailedPhase`. -/
def handleFailedPhase (settings : ProvisionerSettings) (claim : ResourceClaim)
    (strategy : Strategy) : Client Handled := do
  let (status, err) ← strategy.getStatus claim
  match err with
  | some _ => pure (claim, {}, none)
  | none =>
    if status.phase = .bound then
      pure (setClaiming settings.now claim Conditions.reasonClaiming
        "Retrying provisioning after recovery", { requeue := true }, none)
    else pure (claim, {}, none)

/-- `handleProvisioning`. -/
def handleProvisioning (settings : ProvisionerSettings) (claim : ResourceClaim) : Client Handled :=
  match settings.strategySelector.getStrategy claim.spec.type with
  | .error fault =>
    pure (setFailed settings.now claim Conditions.reasonClaimFailed
      ("No strategy available: " ++ fault.text), {},
      some (fault.wrap "strategy not found: "))
  | .ok strategy =>
    match claim.status.phase with
    | .unset => handlePendingPhase settings claim strategy
    | .pending => handlePendingPhase settings claim strategy
    | .claiming => handleClaimingPhase settings claim strategy
    | .bound => handleBoundPhase settings claim strategy
    | .failed => handleFailedPhase settings claim strategy
    | .other _ =>
      pure (setPending settings.now claim Conditions.reasonClaimPending
        "Unknown phase, resetting to Pending", { requeue := true }, none)

/-! ### Deletion -/

/-- The end of `handleDeletion`. -/
def releaseClaim (claim : ResourceClaim) : Client (ReconcileResult × Option GoError) := do
  let updated ← Program.request (.update .resourceClaim (removeFinalizer claim))
  match updated with
  | .ok _ => pure ({}, none)
  | .error fault => pure ({}, some fault)

/-- `handleDeletion`.  A claim without a strategy is released anyway. -/
def handleDeletion (settings : ProvisionerSettings) (claim : ResourceClaim) :
    Client (ReconcileResult × Option GoError) :=
  if hasFinalizer claim then
    match settings.strategySelector.getStrategy claim.spec.type with
    | .error _ => releaseClaim claim
    | .ok strategy => do
        let deprovisioned ← strategy.deprovision claim
        match deprovisioned with
        | .error fault => pure ({}, some fault)
        | .ok () => releaseClaim claim
  else pure ({}, none)

/-! ### Reconciliation -/

/-- The first reconcile of a claim: add the finalizer, then write the initial
phase on the object that the server returned. -/
def initializeClaim (settings : ProvisionerSettings) (claim : ResourceClaim) :
    Client (ReconcileResult × Option GoError) := do
  let updated ← Program.request (.update .resourceClaim (addFinalizer claim))
  match updated with
  | .error fault => pure ({}, some fault)
  | .ok claim => do
      let claim := setPending settings.now claim Conditions.reasonClaimPending
        "Initializing resource claim"
      let statusUpdated ← Program.request (.updateStatus .resourceClaim claim)
      match statusUpdated with
      | .error statusErr => pure ({}, some statusErr)
      | .ok claim => pure (getReconcileResult claim none)

/-- Handle the phase of a claim and write its status, also after an error. -/
def provisionClaim (settings : ProvisionerSettings) (claim : ResourceClaim) :
    Client (ReconcileResult × Option GoError) := do
  let (claim, _, err) ← handleProvisioning settings claim
  let statusUpdated ← Program.request (.updateStatus .resourceClaim claim)
  match statusUpdated with
  | .error statusErr => pure (getReconcileResult claim (err.or (some statusErr)))
  | .ok claim => pure (getReconcileResult claim err)

/-- `ProvisionerReconciler.Reconcile`. -/
def reconcileClaim (settings : ProvisionerSettings) (key : NamespacedName) :
    Client (ReconcileResult × Option GoError) := do
  let got ← Program.request (.get .resourceClaim key)
  match got with
  | .error fault => if fault.isNotFound then pure ({}, none) else pure ({}, some fault)
  | .ok claim =>
    if shouldReconcile claim then
      if claim.isBeingDeleted then handleDeletion settings claim
      else if hasFinalizer claim then provisionClaim settings claim
      else initializeClaim settings claim
    else pure ({}, none)

end ScoreOrchestrator.Provisioner
