/-
Module: Controller.Pipeline
Purpose: The reconciliation pipeline of a Workload: finalizer, the four phases,
  and deletion (internal/controller/reconciler/pipeline.go,
  internal/controller/phases, internal/reconcile/finalizer.go and
  internal/controller/workload_controller.go).
Trusted boundary: human-reviewed spec
Main exports: PhaseContext, PhaseResult, Phase, executePipeline, reconcileWorkload
-/
import ScoreOrchestrator.Controller.PlanManager

namespace ScoreOrchestrator.Controller

open Foundation

/-! ### Finalizer -/

def workloadFinalizer : String := "workloads.score.dev/finalizer"

/-- `HasFinalizer`. -/
def hasFinalizer (workload : Workload) : Bool :=
  workload.metadata.finalizers.contains workloadFinalizer

/-- Replace the finalizers of a Workload. -/
def withFinalizers (workload : Workload) (finalizers : List String) : Workload :=
  { workload with metadata := { workload.metadata with finalizers } }

/-- `EnsureFinalizer`.  An update fills the object in with the server's
answer. -/
def ensureFinalizer (workload : Workload) : Client (Except GoError Workload) :=
  if hasFinalizer workload then pure (.ok workload)
  else Program.request (.update .workload
    (withFinalizers workload (workload.metadata.finalizers ++ [workloadFinalizer])))

/-- `RemoveFinalizer`. -/
def removeFinalizer (workload : Workload) : Client (Except GoError Workload) :=
  if hasFinalizer workload then
    Program.request (.update .workload
      (withFinalizers workload
        (workload.metadata.finalizers.filter (· ≠ workloadFinalizer))))
  else pure (.ok workload)

/-! ### Phases -/

/-- The part of `PhaseContext` that phases hand on to each other. -/
structure PhaseContext where
  workload : Workload
  claims : List ResourceClaim := []
  claimAgg : ClaimAggregation := default
  plan : Option WorkloadPlan := none
deriving DecidableEq, Inhabited

/-- `PhaseResult`. -/
structure PhaseResult where
  skip : Bool := false
  requeue : Bool := false
  requeueAfter : Nat := 0
  error : Option GoError := none
deriving DecidableEq, Repr, Inhabited

/-- A phase of the normal pipeline. -/
structure Phase where
  shouldSkip : PhaseContext → Bool
  execute : PhaseContext → Client (PhaseContext × PhaseResult)

/-- Every normal phase is skipped for a Workload that is being deleted. -/
def skipDuringDeletion (context : PhaseContext) : Bool := context.workload.isBeingDeleted

/-- `validateInputsAndPolicy`, which accepts every Workload. -/
def validateInputsAndPolicy (_ : Workload) : Bool × String × String :=
  (true, Conditions.reasonSucceeded, "Workload specification is valid")

/-- `ValidationPhase`. -/
def validationPhase (settings : Settings) : Phase where
  shouldSkip := skipDuringDeletion
  execute context :=
    let (inputsValid, reason, message) := validateInputsAndPolicy context.workload
    let workload := setInputsValidCondition (settings.clock 0) context.workload
      inputsValid reason message
    pure ({ context with workload }, { skip := !inputsValid })

/-- `ClaimPhase.Execute`. -/
def executeClaimPhase (settings : Settings) (context : PhaseContext) :
    Client (PhaseContext × PhaseResult) := do
  let ensured ← ensureClaims settings.order context.workload
  match ensured with
  | .error fault => pure (context, { error := some fault })
  | .ok () =>
    let listed ← getClaims context.workload
    match listed with
    | .error fault => pure (context, { error := some fault })
    | .ok claims =>
      let claimAgg := aggregateStatus claims
      let workload := updateWorkloadStatusFromAggregation (settings.clock 1)
        context.workload claimAgg
      pure ({ context with workload, claims, claimAgg }, {})

/-- `ClaimPhase`. -/
def claimPhase (settings : Settings) : Phase where
  shouldSkip := skipDuringDeletion
  execute := executeClaimPhase settings

/-- `PlanPhase.Execute`.  A plan that cannot be read counts as no plan. -/
def executePlanPhase (settings : Settings) (context : PhaseContext) :
    Client (PhaseContext × PhaseResult) := do
  let (workload, ensured) ← ensurePlan settings (settings.clock 2)
    context.workload context.claims context.claimAgg
  match ensured with
  | .error fault =>
    if contains fault.text "missing required outputs for projection" then
      pure ({ context with workload }, { skip := true })
    else pure ({ context with workload }, { error := some fault })
  | .ok () =>
    let got ← getPlan workload
    pure ({ context with workload, plan := got.toOption }, {})

/-- `PlanPhase`. -/
def planPhase (settings : Settings) : Phase where
  shouldSkip := skipDuringDeletion
  execute := executePlanPhase settings

/-- `StatusPhase.Execute`. -/
def executeStatusPhase (settings : Settings) (context : PhaseContext) :
    Client (PhaseContext × PhaseResult) := do
  let workload := computeFinalStatus (settings.clock 3) (settings.clock 4)
    context.workload context.plan
  let updated ← updateStatus workload
  match updated with
  | .ok () => pure ({ context with workload }, {})
  | .error fault =>
    if fault.isConflict then
      pure ({ context with workload },
        { requeue := true, requeueAfter := settings.conflictRequeueDelay })
    else pure ({ context with workload }, { error := some fault })

/-- `StatusPhase`. -/
def statusPhase (settings : Settings) : Phase where
  shouldSkip := skipDuringDeletion
  execute := executeStatusPhase settings

/-! ### Deletion -/

/-- `getDeprovisionPolicy`. -/
def getDeprovisionPolicy (claim : ResourceClaim) : DeprovisionPolicy :=
  claim.spec.deprovisionPolicy.getD .delete

/-- Is this the owner reference that deletion takes away? -/
def isWorkloadReference (workload : Workload) (ownerRef : OwnerReference) : Bool :=
  ownerRef.kind = "Workload" && ownerRef.name = workload.metadata.name

/-- `removeOwnerReference`.  The claim is written back as it was listed. -/
def removeOwnerReference (workload : Workload) (claim : ResourceClaim) :
    Client (Except GoError Unit) := do
  let updated ← Program.request (.update .resourceClaim
    { claim with
      metadata :=
        { claim.metadata with
          ownerReferences := claim.metadata.ownerReferences.filter
            fun ownerRef => !isWorkloadReference workload ownerRef } })
  pure (updated.map fun _ => ())

/-- `deleteResourceClaim`. -/
def deleteResourceClaim (claim : ResourceClaim) : Client (Except GoError Unit) :=
  if claim.isBeingDeleted then pure (.ok ())
  else Program.request (.delete .resourceClaim claim.key)

/-- `processDeprovisionPolicy`.  A policy outside the schema means Delete. -/
def processDeprovisionPolicy (workload : Workload) (claim : ResourceClaim) :
    Client (Except GoError Unit) :=
  match getDeprovisionPolicy claim with
  | .delete => deleteResourceClaim claim
  | .retain => removeOwnerReference workload claim
  | .orphan => removeOwnerReference workload claim
  | .other _ => deleteResourceClaim claim

/-- The loop over the claims, which stops at the first error. -/
def processClaims (workload : Workload) :
    List ResourceClaim → Client (Except GoError Unit)
  | [] => pure (.ok ())
  | claim :: rest => do
      let processed ← processDeprovisionPolicy workload claim
      match processed with
      | .ok () => processClaims workload rest
      | .error fault => pure (.error fault)

/-- The claims that hold the finalizer back. -/
def claimsToWaitFor (claims : List ResourceClaim) : Nat :=
  claims.countP fun claim => getDeprovisionPolicy claim = .delete

/-- The second half of `DeletionPhase.Execute`: look again, wait or let go. -/
def finishDeletion (settings : Settings) (workload : Workload) : Client PhaseResult := do
  let listed ← getClaims workload
  match listed with
  | .error fault => pure { error := some fault }
  | .ok remainingClaims =>
    if claimsToWaitFor remainingClaims > 0 then
      pure { requeue := true, requeueAfter := settings.defaultRequeueDelay }
    else do
      let removed ← removeFinalizer workload
      match removed with
      | .ok _ => pure {}
      | .error fault => pure { error := some fault }

/-- `DeletionPhase.Execute`. -/
def executeDeletionPhase (settings : Settings) (workload : Workload) : Client PhaseResult :=
  if hasFinalizer workload then do
    let listed ← getClaims workload
    match listed with
    | .error fault => pure { error := some fault }
    | .ok claims =>
      let processed ← processClaims workload claims
      match processed with
      | .error fault => pure { error := some fault }
      | .ok () => finishDeletion settings workload
  else pure {}

/-! ### Pipeline -/

/-- `ctrl.Result`. -/
structure ReconcileResult where
  requeue : Bool := false
  requeueAfter : Nat := 0
deriving DecidableEq, Repr, Inhabited

/-- `executeNormalPipeline`: the loop over the remaining phases.  An error, a
requeue and a skip all end it, the last one without an error. -/
def executeNormalPipeline :
    List Phase → PhaseContext → Client (Except GoError ReconcileResult)
  | [], _ => pure (.ok {})
  | phase :: rest, context =>
    if phase.shouldSkip context then executeNormalPipeline rest context
    else do
      let (context, result) ← phase.execute context
      match result.error with
      | some fault => pure (.error fault)
      | none =>
        if result.requeue then
          pure (.ok { requeue := true, requeueAfter := result.requeueAfter })
        else if result.skip then pure (.ok {})
        else executeNormalPipeline rest context

/-- The same loop over some first phases, cut off where the next phase would
begin: it ends with the context they hand on, or with the result with which one
of them ends the pipeline. -/
def runPhases :
    List Phase → PhaseContext →
      Client (Except (Except GoError ReconcileResult) PhaseContext)
  | [], context => pure (.ok context)
  | phase :: rest, context =>
    if phase.shouldSkip context then runPhases rest context
    else do
      let (context, result) ← phase.execute context
      match result.error with
      | some fault => pure (.error (.error fault))
      | none =>
        if result.requeue then
          pure (.error
            (.ok { requeue := true, requeueAfter := result.requeueAfter }))
        else if result.skip then pure (.error (.ok {}))
        else runPhases rest context

/-- The loop is the loop over its first phases and then over the others. -/
theorem executeNormalPipeline_append (front back : List Phase) (context : PhaseContext) :
    executeNormalPipeline (front ++ back) context =
      (runPhases front context).bind fun
        | .ok context => executeNormalPipeline back context
        | .error result => .done result := by
  induction front generalizing context with
  | nil => rfl
  | cons phase rest ih =>
    simp only [List.cons_append, executeNormalPipeline, runPhases]
    split
    · exact ih context
    · simp only [Program.bind_eq, Program.bind_assoc]
      congr 1
      funext returned
      obtain ⟨next, result⟩ := returned
      split
      · rfl
      · split
        · rfl
        · split
          · rfl
          · exact ih next

/-- The phases of `NewWorkloadPipeline`, in order. -/
def normalPhases (settings : Settings) : List Phase :=
  [validationPhase settings, claimPhase settings, planPhase settings,
    statusPhase settings]

/-- `executeDeletionPipeline`. -/
def executeDeletionPipeline (settings : Settings) (workload : Workload) :
    Client (Except GoError ReconcileResult) := do
  let result ← executeDeletionPhase settings workload
  match result.error with
  | some fault => pure (.error fault)
  | none =>
    if result.requeue then
      pure (.ok { requeue := true, requeueAfter := result.requeueAfter })
    else pure (.ok {})

/-- `WorkloadPipeline.Execute`. -/
def executePipeline (settings : Settings) (workload : Workload) :
    Client (Except GoError ReconcileResult) :=
  if workload.isBeingDeleted then executeDeletionPipeline settings workload
  else do
    let ensured ← ensureFinalizer workload
    match ensured with
    | .error fault => pure (.error fault)
    | .ok workload => executeNormalPipeline (normalPhases settings) { workload }

/-- `WorkloadReconciler.Reconcile`. -/
def reconcileWorkload (settings : Settings) (key : NamespacedName) :
    Client (Except GoError ReconcileResult) := do
  let got ← Program.request (.get .workload key)
  match got with
  | .ok workload => executePipeline settings workload
  | .error fault =>
    if fault.isNotFound then pure (.ok {}) else pure (.error fault)

end ScoreOrchestrator.Controller
