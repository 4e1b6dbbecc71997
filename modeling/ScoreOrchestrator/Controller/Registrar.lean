/-
Module: Controller.Registrar
Purpose: Registration of a spec-only WorkloadExposure for every Workload
  (internal/controller/workloadexposure_registrar_controller.go).
Trusted boundary: human-reviewed spec
Main exports: desiredExposure, getUpdateReason, registerExposure, mainRegistrar
-/
import ScoreOrchestrator.Controller.Mirror

namespace ScoreOrchestrator.Controller

open Foundation

/-- The exposure that a Workload asks for, without a status. -/
def desiredExposure (runtimeClass : String) (workload : Workload) : WorkloadExposure where
  metadata :=
    { name := workload.metadata.name
      ns := workload.metadata.ns
      ownerReferences := [Reconcile.controllerReference workload] }
  spec :=
    { workloadRef :=
        { name := workload.metadata.name
          ns := some workload.metadata.ns
          uid := workload.metadata.uid }
      observedWorkloadGeneration := workload.metadata.generation
      runtimeClass := runtimeClass }
  status := default

/-- The reasons that `getUpdateReason` collects. -/
def updateReasons (current desired : WorkloadExposureSpec) : List String :=
  (if current.observedWorkloadGeneration ≠ desired.observedWorkloadGeneration then
      ["generation"] else []) ++
    (if current.runtimeClass ≠ desired.runtimeClass then ["runtimeClass"] else []) ++
    (if current.workloadRef.name ≠ desired.workloadRef.name then
      ["workloadRef.name"] else []) ++
    (if current.workloadRef.uid ≠ desired.workloadRef.uid then
      ["workloadRef.uid"] else []) ++
    (if current.workloadRef.ns ≠ desired.workloadRef.ns then
      ["workloadRef.namespace"] else [])

/-- `getUpdateReason`, empty if there is nothing to update. -/
def getUpdateReason (current desired : WorkloadExposureSpec) : String :=
  match updateReasons current desired with
  | [] => ""
  | first :: rest =>
    "changed " ++ first ++
      (if rest.length > 0 then " (and " ++ toString rest.length ++ " more)" else "")

/-- Create the exposure, or patch the spec of the one that exists. -/
def applyExposure (desired : WorkloadExposure) : Client (Except GoError ReconcileResult) := do
  let got ← Program.request (.get .workloadExposure desired.key)
  match got with
  | .error fault =>
    if fault.isNotFound then do
      let created ← Program.request (.create .workloadExposure desired)
      match created with
      | .ok _ => pure (.ok {})
      | .error fault => pure (.error fault)
    else pure (.error fault)
  | .ok exposure =>
    if getUpdateReason exposure.spec desired.spec ≠ "" then do
      let patched ← Program.request
        (.patch .workloadExposure exposure { exposure with spec := desired.spec })
      match patched with
      | .ok _ => pure (.ok {})
      | .error fault => pure (.error fault)
    else pure (.ok {})

/-- `WorkloadExposureRegistrar.Reconcile`. -/
def registerExposure (runtimeClass : String) (key : NamespacedName) :
    Client (Except GoError ReconcileResult) := do
  let got ← Program.request (.get .workload key)
  match got with
  | .error fault => pure (ignoreNotFound fault)
  | .ok workload =>
    if workload.isBeingDeleted then pure (.ok {})
    else applyExposure (desiredExposure runtimeClass workload)

/-- `meta.RuntimeClassKubernetes`. -/
def runtimeClassKubernetes : String := "kubernetes"

/-- The registrar as `cmd/main.go` sets it up, whatever the configuration. -/
def mainRegistrar (key : NamespacedName) : Client (Except GoError ReconcileResult) :=
  registerExposure runtimeClassKubernetes key

end ScoreOrchestrator.Controller
