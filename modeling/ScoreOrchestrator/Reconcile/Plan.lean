/-
Module: Reconcile.Plan
Purpose: Creation and update of the WorkloadPlan of a Workload behind the
  placeholder gate (internal/reconcile/plan.go).
Trusted boundary: human-reviewed spec
Main exports: SelectedBackend, desiredPlanSpec, workloadPlanSpecEqual,
  upsertWorkloadPlan
-/
import ScoreOrchestrator.Projection.Placeholder
import ScoreOrchestrator.Reconcile.Resolver

namespace ScoreOrchestrator.Reconcile

open Foundation

/-- `selection.SelectedBackend`, as far as the plan takes it over. -/
structure SelectedBackend where
  runtimeClass : String
  template : TemplateSpec
deriving DecidableEq, Repr, Inhabited

/-- `buildPlanClaims`. -/
def buildPlanClaims (claims : List ResourceClaim) : List PlanClaim :=
  claims.map fun claim =>
    { key := claim.spec.key, type := claim.spec.type, class_ := claim.spec.class_ }

/-- `workloadPlanSpecEqual`.  Template and resolved values are not compared,
and of the claims only their number. -/
def workloadPlanSpecEqual (a b : WorkloadPlanSpec) : Bool :=
  a.workloadRef = b.workloadRef &&
    a.observedWorkloadGeneration = b.observedWorkloadGeneration &&
    a.runtimeClass = b.runtimeClass &&
    a.claims.length = b.claims.length

/-- The spec a Workload's plan should have. -/
def desiredPlanSpec (workload : Workload) (claims : List ResourceClaim)
    (selectedBackend : SelectedBackend) (resolvedValues : RawExtension) : WorkloadPlanSpec where
  workloadRef := { name := workload.metadata.name, ns := workload.metadata.ns }
  observedWorkloadGeneration := workload.metadata.generation
  runtimeClass := selectedBackend.runtimeClass
  template := some selectedBackend.template
  resolvedValues := some resolvedValues
  claims := buildPlanClaims claims

/-- The reference `SetControllerReference` adds for a Workload. -/
def controllerReference (workload : Workload) : OwnerReference where
  apiVersion := "score.dev/v1b1"
  kind := "Workload"
  name := workload.metadata.name
  uid := workload.metadata.uid
  controller := some true
  blockOwnerDeletion := some true

/-- The plan object to create.  `SetControllerReference` cannot fail on it: it
is new and in the Workload's namespace. -/
def newPlan (workload : Workload) (desiredSpec : WorkloadPlanSpec) : WorkloadPlan where
  metadata :=
    { name := workload.metadata.name
      ns := workload.metadata.ns
      labels := .ofList [("score.dev/workload", workload.metadata.name)]
      ownerReferences := [controllerReference workload] }
  spec := desiredSpec
  status := default

/-- Update a plan that was read, unless its spec counts as equal. -/
def updatePlan (plan : WorkloadPlan) (desiredSpec : WorkloadPlanSpec) (context : String) :
    Client (Except GoError Unit) :=
  if workloadPlanSpecEqual plan.spec desiredSpec then pure (.ok ())
  else do
    let updated ← Program.request
      (.update .workloadPlan { plan with spec := desiredSpec })
    match updated with
    | .ok _ => pure (.ok ())
    | .error fault => pure (.error (fault.wrap context))

/-- Create the plan; if it exists after all, read and update it. -/
def createPlan (workload : Workload) (desiredSpec : WorkloadPlanSpec) :
    Client (Except GoError Unit) := do
  let plan := newPlan workload desiredSpec
  let created ← Program.request (.create .workloadPlan plan)
  match created with
  | .ok _ => pure (.ok ())
  | .error fault =>
    if fault.isAlreadyExists then
      let existing ← Program.request (.get .workloadPlan plan.key)
      match existing with
      | .error getErr =>
        pure (.error (getErr.wrap
          "failed to get existing WorkloadPlan after create conflict: "))
      | .ok existingPlan =>
        updatePlan existingPlan desiredSpec
          "failed to update existing WorkloadPlan: "
    else pure (.error (fault.wrap "failed to create WorkloadPlan: "))

/-- The gate: an error unless the document is free of placeholders. -/
def checkResolved (codec : JsonCodec) (resolvedValues : RawExtension) : Except GoError Unit :=
  match Projection.hasUnresolvedPlaceholders codec resolvedValues.raw with
  | (true, some parseErr) => .error (parseErr.wrap "unresolved placeholders (parse error): ")
  | (true, none) => .error { text := "unresolved placeholders found in workload projection" }
  | (false, _) => .ok ()

/-- `UpsertWorkloadPlan`. -/
def upsertWorkloadPlan (order : IterOrder) (codec : JsonCodec) (workload : Workload)
    (claims : List ResourceClaim) (selectedBackend : SelectedBackend) :
    Client (Except GoError Unit) :=
  if workload.metadata.name = "" then
    pure (.error { text := "workload name cannot be empty" })
  else
    let planName := workload.metadata.name
    -- the source checks the same name twice
    if planName = "" then
      pure (.error { text := "plan name cannot be empty, workload.Name: \"" ++ planName ++ "\"" })
    else do
      let got ← Program.request
        (.get .workloadPlan { ns := workload.metadata.ns, name := planName })
      match got with
      | .error getErr =>
        if getErr.isNotFound then
          emit (createPlan workload)
        else
          pure (.error (getErr.wrap
            ("failed to get WorkloadPlan " ++ planName ++ ": ")))
      | .ok plan =>
        emit fun desiredSpec =>
          updatePlan plan desiredSpec "failed to update WorkloadPlan: "
where
  /-- Resolve, check, and hand the desired spec to the write path. -/
  emit (write : WorkloadPlanSpec → Client (Except GoError Unit)) :
      Client (Except GoError Unit) := do
    let resolved ← resolveAllPlaceholders order codec workload claims
    match resolved with
    | .error fault => pure (.error (fault.wrap "failed to resolve placeholders: "))
    | .ok resolvedValues =>
      match checkResolved codec resolvedValues with
      | .error fault => pure (.error fault)
      | .ok () => write (desiredPlanSpec workload claims selectedBackend resolvedValues)

end ScoreOrchestrator.Reconcile
