/-
Module: Controller.WorkloadController
Purpose: The reconciler of Workloads over its lifetime: the pipeline that the first call
  creates, and the configuration loader beside it
  (internal/controller/workload_controller.go).
Trusted boundary: human-reviewed spec
Main exports: WorkloadReconciler, WorkloadReconciler.reconcile, ReconcilerRuns
-/
import ScoreOrchestrator.Config.ReconcilerLoader
import ScoreOrchestrator.Controller.Pipeline

namespace ScoreOrchestrator.Controller

open Foundation
open Config (ReconcilerConfig ReconcilerConfigLoader ReconcilerYaml LoadFault ConfigEvent
  OrchestratorConfig defaultReconcilerConfig)

/-! ### One call -/

/-- The settings of a pipeline that was created with a configuration.  The phases read the
two delays of it. -/
def Settings.withConfig (settings : Settings) (config : ReconcilerConfig) : Settings :=
  { settings with
    defaultRequeueDelay := config.retry.defaultRequeueDelay.toNat
    conflictRequeueDelay := config.retry.conflictRequeueDelay.toNat }

/-- The fields of `WorkloadReconciler` that change: its loader, which may be nil, and the
configuration of its pipeline, which is nil at first. -/
structure WorkloadReconciler where
  reconcilerConfigLoader : Option ReconcilerConfigLoader
  pipeline : Option ReconcilerConfig := none
deriving DecidableEq

/-- The current reconciler configuration. -/
def WorkloadReconciler.reconcilerConfig (reconciler : WorkloadReconciler) : ReconcilerConfig :=
  match reconciler.reconcilerConfigLoader with
  | some loader => loader.getCachedConfig
  | none => defaultReconcilerConfig

/-- `Reconcile`, with the reconciler that it leaves. -/
def WorkloadReconciler.reconcile (reconciler : WorkloadReconciler) (settings : Settings)
    (key : NamespacedName) : Client (WorkloadReconciler × Except GoError ReconcileResult) := do
  let got ← Program.request (.get .workload key)
  match got with
  | .error fault =>
    if fault.isNotFound then pure (reconciler, .ok {}) else pure (reconciler, .error fault)
  | .ok workload =>
    let pipeline := reconciler.pipeline.getD reconciler.reconcilerConfig
    let result ← executePipeline (settings.withConfig pipeline) workload
    pure ({ reconciler with pipeline := some pipeline }, result)

/-! ### Histories -/

section

variable {State : Type}

/-- What happens to a reconciler: the configuration is loaded, an event of it is watched, or
`Reconcile` is called, with its calls and its result. -/
inductive ReconcilerAct (State : Type) where
  | load (loaded : Except LoadFault OrchestratorConfig)
  | watch (event : ConfigEvent)
  | reconcile (events : List (EventOn State))
      (result : Except GoError ReconcileResult)

/-- One step.  Calls of `Reconcile` do not overlap, and read the cache of the loader once. -/
inductive ReconcilerStep (service : Server State) (yaml : ReconcilerYaml) :
    WorkloadReconciler → ReconcilerAct State → WorkloadReconciler → Prop where
  | load {reconciler : WorkloadReconciler} {loader : ReconcilerConfigLoader}
      (given : reconciler.reconcilerConfigLoader = some loader)
      (loaded : Except LoadFault OrchestratorConfig) :
      ReconcilerStep service yaml reconciler (.load loaded)
        { reconciler with reconcilerConfigLoader := some (loader.loadConfig yaml loaded).1 }
  | watch {reconciler : WorkloadReconciler} {loader next : ReconcilerConfigLoader}
      {event : ConfigEvent} {told : Option ReconcilerConfig × Option GoError}
      (given : reconciler.reconcilerConfigLoader = some loader)
      (handled : loader.handleEvent yaml event = some (next, told)) :
      ReconcilerStep service yaml reconciler (.watch event)
        { reconciler with reconcilerConfigLoader := some next }
  | reconcile {reconciler next : WorkloadReconciler} {settings : Settings}
      {key : NamespacedName} {before after : State} {events : List (EventOn State)}
      {result : Except GoError ReconcileResult}
      (run : (reconciler.reconcile settings key).Runs service before events
        (.returned (next, result)) after) :
      ReconcilerStep service yaml reconciler (.reconcile events result) next

/-- A history.  Between two calls the cluster may change in any way. -/
inductive ReconcilerRuns (service : Server State) (yaml : ReconcilerYaml) :
    WorkloadReconciler → List (ReconcilerAct State) → WorkloadReconciler → Prop where
  | nil (reconciler : WorkloadReconciler) : ReconcilerRuns service yaml reconciler [] reconciler
  | cons {first middle last : WorkloadReconciler} {act : ReconcilerAct State}
      {acts : List (ReconcilerAct State)} (step : ReconcilerStep service yaml first act middle)
      (rest : ReconcilerRuns service yaml middle acts last) :
      ReconcilerRuns service yaml first (act :: acts) last

end

end ScoreOrchestrator.Controller
