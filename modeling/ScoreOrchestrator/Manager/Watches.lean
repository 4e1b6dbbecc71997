/-
Module: Manager.Watches
Purpose: How a change of the cluster becomes requests of a controller, and what the
  controllers watch and run (the `SetupWithManager` functions and
  internal/controller/watches.go).
Trusted boundary: human-reviewed spec
Main exports: changed, Source, enqueued, workloadSources, exposureSources, reconciler
-/
import ScoreOrchestrator.Api.ServerLaws
import ScoreOrchestrator.Controller.Pipeline
import ScoreOrchestrator.Foundation.WorkQueue
import ScoreOrchestrator.Runtime.ExposureController

namespace ScoreOrchestrator.Manager

open Foundation
open Controller (ReconcileResult)

/-! ### Events -/

/-- The objects that the events of one call are about: what was created or deleted, and of
an update the old object and the new one. -/
def changed (kind : Kind) (before after : Store) : List kind.Object :=
  (after.table kind).rows.filter (fun object => before.find? kind object.key ≠ some object) ++
    (before.table kind).rows.filter fun object => after.find? kind object.key ≠ some object

/-- A watch, with the keys that an object asks for. -/
structure Source where
  kind : Kind
  requests : Store → kind.Object → List NamespacedName

namespace Source

def requestsFor (source : Source) (before after : Store) : List NamespacedName :=
  (changed source.kind before after).flatMap (source.requests after)

/-- `For`. -/
def for_ (kind : Kind) : Source where
  kind := kind
  requests _ object := [object.key]

/-- `Owns`: the Workload that the controller reference names. -/
def ownedByWorkload (kind : Kind) : Source where
  kind := kind
  requests _ object := (object.metadata.ownerReferences.filter fun reference =>
    reference.controller = some true && reference.kind = "Workload" &&
      "score.dev/".toList.isPrefixOf reference.apiVersion.toList).map fun reference =>
        { ns := object.metadata.ns, name := reference.name }

end Source

/-- The keys that a change puts on the queue of a controller. -/
def enqueued (sources : List Source) (before after : Store) : List NamespacedName :=
  sources.flatMap fun source => source.requestsFor before after

section

variable {sources : List Source} {source : Source} {before after : Store} {key : NamespacedName}

/-- An object that asks for a key is not touched by a change that does not. -/
theorem mem_iff_of_silent (watched : source ∈ sources)
    (silent : key ∉ enqueued sources before after) {object : source.kind.Object}
    (asks : key ∈ source.requests after object) :
    object ∈ (after.table source.kind).rows ↔ object ∈ (before.table source.kind).rows := by
  have same : object ∉ changed source.kind before after := fun member =>
    silent (List.mem_flatMap.mpr ⟨source, watched, List.mem_flatMap.mpr ⟨object, member, asks⟩⟩)
  simp only [changed, List.mem_append, List.mem_filter, decide_eq_true_eq, not_or, not_and,
    not_not] at same
  constructor
  · exact fun member => (Store.find?_eq_some.mp (same.1 member)).1
  · exact fun member => (Store.find?_eq_some.mp (same.2 member)).1

theorem find?_eq_of_silent {kind : Kind}
    (silent : key ∉ enqueued (.for_ kind :: sources) before after) :
    after.find? kind key = before.find? kind key := by
  refine Option.ext fun object => ?_
  rw [Store.find?_eq_some, Store.find?_eq_some]
  refine and_congr_left fun named => ?_
  subst named
  exact mem_iff_of_silent (.head _) silent (.head _)

end

/-! ### Controllers -/

/-- The watches of the Workload controller. -/
def workloadSources : List Source :=
  [.for_ .workload, .ownedByWorkload .resourceClaim, .ownedByWorkload .workloadPlan,
    -- `EnqueueRequestForOwningWorkload`
    { kind := .resourceClaim, requests := fun _ (claim : ResourceClaim) =>
        [claim.spec.workloadRef] },
    { kind := .workloadPlan, requests := fun _ (plan : WorkloadPlan) =>
        [plan.spec.workloadRef] }]

/-- The watches of the runtime's exposure controller.  The handler of Services reads the
cache, which does not fail. -/
def exposureSources : List Source :=
  [.for_ .workloadExposure,
    { kind := .service, requests := fun store service =>
        ((Runtime.findWorkloadExposuresForService service).execute serve [] store).2.1.getD [] }]

/-- What becomes of a request by what `Reconcile` returns. -/
def verdict : Except GoError ReconcileResult → Verdict
  | .error _ => .requeue
  | .ok result => if result.requeueAfter > 0 || result.requeue then .requeue else .forget

/-- A key of a controller that runs with whatever settings it finds.  Others may make any
call; the calls of the controller may fail, but what they read is current, and an object that
is there is not reported missing. -/
def reconciler {Settings : Type _} (sources : List Source) (key : NamespacedName)
    (reconcile : Settings → Client (Except GoError ReconcileResult)) :
    WorkItem Call GoError Store where
  service := truthfulServer
  others before after := ∃ (answer : Type) (request : Call answer) (reply : Except GoError answer),
    apiServer request before reply after
  own served := ⟨_, _, _, apiServer_of_truthfulServer served⟩
  programs program := ∃ settings,
    program = (reconcile settings).bind fun returned => .done (verdict returned)
  wakes before after := key ∈ enqueued sources before after
  lists store := key ∈ enqueued sources .empty store

end ScoreOrchestrator.Manager
