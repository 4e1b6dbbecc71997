/-
Module: Proofs.BuiltDeployment
Purpose: What the Deployment that the runtime builds is made of: one container for
  each container of the Workload.
-/
import ScoreOrchestrator.Foundation.Traverse
import ScoreOrchestrator.Runtime.PlanController

namespace ScoreOrchestrator.Runtime

open Foundation

variable {settings : RuntimeSettings} {plan : WorkloadPlan} {workload : Workload}

/-! ### What a Deployment is made of -/

/-- One container for each container of the Workload, with its name and image
and with the environment that the plan resolved for it. -/
def ComposedOf (settings : RuntimeSettings) (plan : WorkloadPlan) (workload : Workload)
    (containers : List Container) : Prop :=
  List.Forall₂
    (fun entry container => container.name = entry.1 ∧
      container.image = entry.2.image ∧
      buildEnv settings plan entry.1 entry.2 = .ok container.env)
    (settings.order.range workload.spec.containers) containers

/-! ### One container -/

/-- The amounts a container requests: none if it has no resources. -/
def requested (spec : ContainerSpec) : GoMap String :=
  (spec.resources.map ResourceRequirements.requests).getD .empty

/-- The amounts a container is limited to. -/
def limited (spec : ContainerSpec) : GoMap String :=
  (spec.resources.map ResourceRequirements.limits).getD .empty

theorem parseQuantities_empty (settings : RuntimeSettings) (what : String) :
    parseQuantities settings what .empty = .ok .empty := by
  have nothing : settings.order.range (.empty : GoMap String) = [] :=
    (settings.order.perm []).eq_nil
  unfold parseQuantities
  rw [nothing]
  rfl

/-- A container is built from its environment and its amounts.  Nothing else of its
spec but the image is read. -/
theorem buildContainer_eq_ok {entry : String × ContainerSpec} {container : Container} :
    buildContainer settings plan entry = .ok container ↔
      ∃ env requests limits, buildEnv settings plan entry.1 entry.2 = .ok env ∧
        parseQuantities settings "request" (requested entry.2) = .ok requests ∧
        parseQuantities settings "limit" (limited entry.2) = .ok limits ∧
        container = { name := entry.1, image := entry.2.image, env, requests, limits } := by
  unfold buildContainer requested limited
  cases buildEnv settings plan entry.1 entry.2 with
  | error fault => simp [bind, Except.bind]
  | ok env =>
    cases entry.2.resources with
    | none => simp [bind, Except.bind, parseQuantities_empty, eq_comm]
    | some resources =>
      simp only [bind, Except.bind, Option.map_some, Option.getD_some]
      cases parseQuantities settings "request" resources.requests with
      | error fault => simp
      | ok requests =>
        cases parseQuantities settings "limit" resources.limits with
        | error fault => simp
        | ok limits => simp [eq_comm]

theorem buildContainer_ok {entry : String × ContainerSpec} {container : Container}
    (built : buildContainer settings plan entry = .ok container) :
    container.name = entry.1 ∧ container.image = entry.2.image ∧
      buildEnv settings plan entry.1 entry.2 = .ok container.env := by
  obtain ⟨env, _, _, resolved, _, _, rfl⟩ := buildContainer_eq_ok.mp built
  exact ⟨rfl, rfl, resolved⟩

/-! ### All containers -/

/-- Only the containers of a Deployment have to be built. -/
theorem buildDeployment_ok {deployment : Deployment}
    (built : buildDeployment settings plan workload = .ok deployment) :
    (settings.order.range workload.spec.containers).mapM (buildContainer settings plan) =
        .ok deployment.spec.containers ∧
      deployment.metadata =
        { name := plan.spec.workloadRef.name
          ns := plan.spec.workloadRef.ns
          labels := .ofList (runtimeLabels plan.spec.workloadRef.name)
          annotations := generationAnnotations plan workload } ∧
      deployment.spec =
        { replicas := 1
          selector := selectorLabels plan.spec.workloadRef.name
          templateLabels := .ofList (runtimeLabels plan.spec.workloadRef.name)
          containers := deployment.spec.containers } := by
  unfold buildDeployment at built
  cases visited : (settings.order.range workload.spec.containers).mapM
      (buildContainer settings plan) with
  | error fault =>
    rw [visited] at built
    cases built
  | ok containers =>
    rw [visited] at built
    cases built
    exact ⟨rfl, rfl, rfl⟩

/-- A Deployment that is built at all has the containers of the Workload. -/
theorem buildDeployment_composedOf {deployment : Deployment}
    (built : buildDeployment settings plan workload = .ok deployment) :
    ComposedOf settings plan workload deployment.spec.containers :=
  (forall₂_of_mapM_ok (buildDeployment_ok built).1).imp fun _ _ => buildContainer_ok

theorem ComposedOf.names {containers : List Container}
    (composed : ComposedOf settings plan workload containers) :
    containers.map Container.name = (settings.order.range workload.spec.containers).map Prod.fst :=
  map_eq_of_forall₂ (fun _ _ built => built.1) composed

/-- The container of a name in a Deployment: there is one, and only one. -/
theorem ComposedOf.exists_unique {containers : List Container}
    (composed : ComposedOf settings plan workload containers) {name : String} {spec : ContainerSpec}
    (found : workload.spec.containers.get? name = some spec) :
    ∃ container ∈ containers, container.name = name ∧
      buildEnv settings plan name spec = .ok container.env ∧
      ∀ other ∈ containers, other.name = name → other = container := by
  have distinct : (containers.map Container.name).Nodup := by
    rw [composed.names]
    exact settings.order.nodup_range workload.spec.containers
  have listed : (name, spec) ∈ settings.order.range workload.spec.containers :=
    IterOrder.mem_range.mpr (GoMap.get?_eq_some.mp found)
  obtain ⟨container, member, named, _, builtEnv⟩ := exists_right_of_forall₂ composed listed
  refine ⟨container, member, named, builtEnv, fun other otherMember same => ?_⟩
  exact List.inj_on_of_nodup_map distinct otherMember member (same.trans named.symm)

end ScoreOrchestrator.Runtime
