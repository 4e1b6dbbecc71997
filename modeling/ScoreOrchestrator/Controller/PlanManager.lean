/-
Module: Controller.PlanManager
Purpose: The WorkloadPlan of a Workload and the status derived from it
  (internal/controller/managers/plan_manager.go and status_manager.go).
Trusted boundary: human-reviewed spec
Main exports: Settings, ensurePlan, getPlan, computeFinalStatus, updateStatus
-/
import ScoreOrchestrator.Controller.ClaimManager
import ScoreOrchestrator.Selection.Selector

namespace ScoreOrchestrator.Controller

open Foundation
open Reconcile (SelectedBackend upsertWorkloadPlan)

/-- What one run of the pipeline finds besides the cluster: the iteration order
of maps, the JSON codec, its readings of the clock, the backend selection under
the configuration in force, and the retry delays. -/
structure Settings where
  order : IterOrder
  codec : JsonCodec
  clock : Nat → Time
  selectBackend : Workload → Except GoError SelectedBackend
  defaultRequeueDelay : Nat
  conflictRequeueDelay : Nat

/-- The settings of a run in which nothing special happens. -/
def quietSettings : Settings where
  order := .entryOrder
  codec := .text
  clock _ := 1
  selectBackend _ := .ok { runtimeClass := "kubernetes", template := default }
  defaultRequeueDelay := 30
  conflictRequeueDelay := 1

/-- The settings with the `SelectBackend` of the plan manager under a configuration that
it has loaded. -/
def configured (settings : Settings) (libraries : Selection.Libraries) (order : IterOrder)
    (config : Config.OrchestratorConfig) : Settings :=
  { settings with
    selectBackend := fun workload =>
      match Selection.selectBackend libraries order config workload with
      | .error fault => .error (fault.wrap "failed to select backend: ")
      | .ok selectedBackend => .ok selectedBackend.toSelectedBackend }

/-! ### Conditions of a Workload -/

/-- Set one condition of a Workload from a boolean. -/
def setWorkloadCondition (type : String) (now : Time) (workload : Workload) (holds : Bool)
    (reason message : String) : Workload :=
  { workload with
    status :=
      { workload.status with
        conditions := Conditions.setCondition now type
          (Conditions.statusOf holds) reason message
          workload.status.conditions } }

/-- `SetInputsValidCondition`. -/
def setInputsValidCondition := setWorkloadCondition Conditions.inputsValid

/-- `SetRuntimeReadyCondition`. -/
def setRuntimeReadyCondition := setWorkloadCondition Conditions.runtimeReady

/-! ### Plans -/

/-- The error texts that `EnsurePlan` takes for a projection error. -/
def isProjectionError (fault : GoError) : Bool :=
  contains fault.text "missing required outputs for projection" ||
    contains fault.text "unresolved placeholders"

/-- `EnsurePlan`.  It sets conditions on the Workload in memory only. -/
def ensurePlan (settings : Settings) (now : Time) (workload : Workload)
    (claims : List ResourceClaim) (aggregation : ClaimAggregation) :
    Client (Workload × Except GoError Unit) :=
  if aggregation.ready then
    match settings.selectBackend workload with
    | .error fault =>
      pure (setRuntimeReadyCondition now workload false
        Conditions.reasonRuntimeSelecting
        ("Backend selection failed: " ++ fault.text), .error fault)
    | .ok selectedBackend => do
        let upserted ← upsertWorkloadPlan settings.order settings.codec workload
          claims selectedBackend
        match upserted with
        | .ok () => pure (workload, .ok ())
        | .error fault =>
          if isProjectionError fault then
            pure (setRuntimeReadyCondition now workload false
              Conditions.reasonProjectionError
              Conditions.messageProjectionError, .error fault)
          else pure (workload, .error fault)
  else pure (workload, .ok ())

/-- Pick the only plan of a listing. -/
def onlyPlan (workload : Workload) :
    Except GoError (List WorkloadPlan) → Except GoError WorkloadPlan
  | .error fault => .error (fault.wrap "failed to list WorkloadPlans: ")
  | .ok [] =>
    .error (.objectNotFound .workloadPlan
      { ns := workload.metadata.ns, name := workload.metadata.name })
  | .ok [plan] => .ok plan
  | .ok _ =>
    .error { text := "multiple WorkloadPlans found for Workload " ++
      workload.metadata.ns ++ "/" ++ workload.metadata.name }

/-- `GetPlan`. -/
def getPlan (workload : Workload) : Client (Except GoError WorkloadPlan) := do
  let listed ← Program.request (.list .workloadPlan
    (.matchingFields "workloadplan.workloadRef" (indexKey workload)))
  match listed with
  | .ok plans => pure (onlyPlan workload (.ok plans))
  | .error fault =>
    if contains fault.text "no index with name" then do
      let labelled ← Program.request (.list .workloadPlan
        (.inNamespaceMatchingLabels workload.metadata.ns
          [("score.dev/workload", workload.metadata.name)]))
      pure (onlyPlan workload labelled)
    else pure (onlyPlan workload (.error fault))

/-! ### Final status -/

/-- A text, or another one in place of the empty text. -/
def orDefault (text default_ : String) : String :=
  if text = "" then default_ else text

/-- `checkRuntimeStatusFromPlan` for a plan that exists. -/
def checkRuntimeStatusFromPlan (plan : WorkloadPlan) : Bool × String × String :=
  match plan.status.phase with
  | .ready => (true, Conditions.reasonSucceeded, "Runtime provisioned successfully")
  | .failed =>
    (false, Conditions.reasonRuntimeDegraded,
      orDefault plan.status.message "Runtime provisioning failed")
  | .provisioning =>
    (false, Conditions.reasonRuntimeProvisioning,
      orDefault plan.status.message "Runtime resources are being provisioned")
  | _ => (false, Conditions.reasonRuntimeSelecting, "Runtime provisioning pending")

theorem checkRuntimeStatusFromPlan_ready {plan : WorkloadPlan} :
    (checkRuntimeStatusFromPlan plan).1 = true ↔ plan.status.phase = .ready := by
  unfold checkRuntimeStatusFromPlan
  split <;> simp_all

/-- `updateRuntimeStatusFromPlan`. -/
def updateRuntimeStatusFromPlan (now : Time) (workload : Workload) :
    Option WorkloadPlan → Workload
  | none =>
    setRuntimeReadyCondition now workload false
      Conditions.reasonRuntimeSelecting "Runtime controller is being selected"
  | some plan =>
    let (runtimeReady, reason, message) := checkRuntimeStatusFromPlan plan
    setRuntimeReadyCondition now workload runtimeReady reason message

/-- The Ready condition written over a condition list. -/
def withReadyCondition (now : Time) (conditions : List Condition) : List Condition :=
  Conditions.setCondition now Conditions.ready
    (Conditions.computeReadyCondition conditions).1
    (Conditions.computeReadyCondition conditions).2.1
    (Conditions.computeReadyCondition conditions).2.2 conditions

/-- `ComputeFinalStatus`. -/
def computeFinalStatus (runtimeNow readyNow : Time) (workload : Workload)
    (plan : Option WorkloadPlan) : Workload :=
  let updated := updateRuntimeStatusFromPlan runtimeNow workload plan
  { updated with
    status :=
      { updated.status with
        conditions := withReadyCondition readyNow updated.status.conditions } }

/-- Whatever the plan says, the final status obeys the Ready rule. -/
theorem readyRule_computeFinalStatus (runtimeNow readyNow : Time) (workload : Workload)
    (plan : Option WorkloadPlan) :
    Conditions.ReadyRule (computeFinalStatus runtimeNow readyNow workload plan).status.conditions :=
  Conditions.readyRule_setCondition_ready readyNow _

/-- A final status is ready only if the claims were reported ready and the plan
is in phase Ready. -/
theorem computeFinalStatus_ready {runtimeNow readyNow : Time} {workload : Workload}
    {plan : Option WorkloadPlan}
    (ready : Conditions.isConditionTrue
      (computeFinalStatus runtimeNow readyNow workload plan).status.conditions
      Conditions.ready = true) :
    Conditions.isConditionTrue workload.status.conditions Conditions.claimsReady = true ∧
      ∃ found, plan = some found ∧ found.status.phase = .ready := by
  obtain ⟨_, claims, runtime⟩ :=
    readyRule_computeFinalStatus runtimeNow readyNow workload plan ready
  have written : ∀ holds reason message,
      updateRuntimeStatusFromPlan runtimeNow workload plan =
        setRuntimeReadyCondition runtimeNow workload holds reason message →
      Conditions.isConditionTrue workload.status.conditions
        Conditions.claimsReady = true ∧ holds = true := by
    intro holds reason message same
    simp only [computeFinalStatus, withReadyCondition, same,
      setRuntimeReadyCondition, setWorkloadCondition] at claims runtime
    rw [Conditions.isConditionTrue_setCondition_of_ne _ _ _ _ _ _ (by decide),
      Conditions.isConditionTrue_setCondition_of_ne _ _ _ _ _ _ (by decide)] at claims
    rw [Conditions.isConditionTrue_setCondition_of_ne _ _ _ _ _ _ (by decide),
      Conditions.isConditionTrue_setCondition_self] at runtime
    refine ⟨claims, ?_⟩
    cases holds
    · simp [Conditions.statusOf] at runtime
    · rfl
  cases plan with
  | none =>
    obtain ⟨_, absurdity⟩ := written false _ _ rfl
    cases absurdity
  | some found =>
    obtain ⟨reported, holds⟩ := written _ _ _ rfl
    exact ⟨reported, found, rfl, checkRuntimeStatusFromPlan_ready.mp holds⟩

/-- `UpdateStatus`. -/
def updateStatus (workload : Workload) : Client (Except GoError Unit) := do
  let updated ← Program.request (.updateStatus .workload workload)
  match updated with
  | .ok _ => pure (.ok ())
  | .error fault => pure (.error (fault.wrap "failed to update workload status: "))

end ScoreOrchestrator.Controller
