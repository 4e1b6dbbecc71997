/-
Module: Proofs.Materialization
Purpose: What of a Workload's containers arrives in the Deployment that the runtime
  builds: names, images and amounts always do, commands, arguments and raw variables
  do not.
-/
import ScoreOrchestrator.Proofs.StableDeployment

namespace ScoreOrchestrator.Runtime

open Foundation

variable {entry : String × ContainerSpec} {container : Container}

/-! ### What preserving a container means -/

/-- The environment that the resolved values of a plan give a container.  A plan
without resolved values gives it none. -/
def planEnvironment (settings : RuntimeSettings) (plan : WorkloadPlan) (containerName : String) :
    Except GoError (GoMap String) :=
  match plan.spec.resolvedValues with
  | none => .ok .empty
  | some resolved => do
      let resolvedValues ← unmarshalMap settings.codec resolved.raw
      extractResolvedEnv settings resolvedValues containerName

/-- The quantity under a key of a resource list. -/
def quantityAt (settings : RuntimeSettings) (amounts : GoMap String) (key : String) :
    Option Quantity :=
  (amounts.get? key).bind fun text => (settings.parseQuantity text).toOption

/-- The image and the amounts of a container are those of its spec. -/
structure Kept (settings : RuntimeSettings) (spec : ContainerSpec)
    (container : Container) : Prop where
  image : container.image = spec.image
  requests : ∀ key, container.requests.get? key = quantityAt settings (requested spec) key
  limits : ∀ key, container.limits.get? key = quantityAt settings (limited spec) key

/-- All of a container is that of its spec, and its environment is that of the plan. -/
structure Carried (settings : RuntimeSettings) (plan : WorkloadPlan) (name : String)
    (spec : ContainerSpec) (container : Container) : Prop
    extends Kept settings spec container where
  command : container.command = spec.command
  args : container.args = spec.args
  env : ∃ values, planEnvironment settings plan name = .ok values ∧
    container.env.Perm (values.rows.map fun entry => ⟨entry.1, entry.2⟩)

/-- The containers are those of the Workload, one for each name. -/
def OneToOne (workload : Workload) (containers : List Container) : Prop :=
  (containers.map Container.name).Perm (workload.spec.containers.rows.map Prod.fst)

/-- Every container with the spec it is named after. -/
def EachContainer (workload : Workload) (containers : List Container)
    (holds : String → ContainerSpec → Container → Prop) : Prop :=
  ∀ container ∈ containers, ∀ spec,
    workload.spec.containers.get? container.name = some spec →
      holds container.name spec container

/-- The containers of the Workload arrive, each with all it has. -/
def Preserved (settings : RuntimeSettings) (plan : WorkloadPlan) (workload : Workload)
    (containers : List Container) : Prop :=
  OneToOne workload containers ∧
    EachContainer workload containers (Carried settings plan)

/-- Nothing in a container spec is lost: there is no command, there are no arguments,
and there are no variables that only the Workload has. -/
def NothingToLose (plan : WorkloadPlan) (spec : ContainerSpec) : Prop :=
  spec.command = [] ∧ spec.args = [] ∧
    (plan.spec.resolvedValues = none → (spec.variables_.getD .empty).rows = [])

/-! ### One container -/

variable {settings : RuntimeSettings} {plan : WorkloadPlan} {workload : Workload}

theorem kept_of_buildContainer (built : buildContainer settings plan entry = .ok container) :
    Kept settings entry.2 container := by
  obtain ⟨_, requests, limits, _, requestsParsed, limitsParsed, rfl⟩ :=
    buildContainer_eq_ok.mp built
  exact ⟨rfl, get?_of_parseQuantities requestsParsed, get?_of_parseQuantities limitsParsed⟩

theorem planEnvironment_of_resolved {resolved : RawExtension} {containerName : String}
    {spec : ContainerSpec} {values : GoMap String}
    (present : plan.spec.resolvedValues = some resolved)
    (found : environment settings plan containerName spec = .ok values) :
    planEnvironment settings plan containerName = .ok values := by
  unfold environment at found
  unfold planEnvironment
  rw [present] at found ⊢
  dsimp only at found ⊢
  cases decoded : unmarshalMap settings.codec resolved.raw with
  | error fault =>
    rw [decoded] at found
    cases found
  | ok resolvedValues =>
    rw [decoded] at found
    dsimp only at found
    cases extracted : extractResolvedEnv settings resolvedValues containerName with
    | error fault =>
      rw [extracted] at found
      cases found
    | ok resolvedEnv =>
      rw [extracted] at found
      cases found
      exact extracted

theorem envVars_perm (order : IterOrder) (entries : GoMap String) :
    (envVars order entries).Perm (entries.rows.map fun entry => ⟨entry.1, entry.2⟩) :=
  (order.perm entries.rows).map _

/-- The environment of a container is the plan's unless the plan has no resolved values
and the container has variables. -/
theorem env_from_plan_iff (built : buildContainer settings plan entry = .ok container) :
    (∃ values, planEnvironment settings plan entry.1 = .ok values ∧
      container.env.Perm (values.rows.map fun entry => ⟨entry.1, entry.2⟩)) ↔
    (plan.spec.resolvedValues = none → (entry.2.variables_.getD .empty).rows = []) := by
  obtain ⟨values, resolved, env⟩ := env_of_buildContainer built
  cases present : plan.spec.resolvedValues with
  | some raw =>
    have fromPlan := planEnvironment_of_resolved present resolved
    exact iff_of_true ⟨values, fromPlan, env ▸ envVars_perm settings.order values⟩ nofun
  | none =>
    have fromPlan : planEnvironment settings plan entry.1 = .ok .empty := by
      unfold planEnvironment
      rw [present]
    have raw : values = entry.2.variables_.getD .empty := by
      unfold environment at resolved
      rw [present] at resolved
      exact (Except.ok.inj resolved).symm
    rw [← raw]
    have variables_ := envVars_perm settings.order values
    rw [← env] at variables_
    constructor
    · rintro ⟨others, found, permuted⟩ _
      cases fromPlan.symm.trans found
      have empty : values.rows.map (fun entry => (⟨entry.1, entry.2⟩ : EnvVar)) = [] :=
        (variables_.symm.trans permuted).eq_nil
      exact List.map_eq_nil_iff.mp empty
    · intro noVariables
      rw [noVariables rfl] at variables_
      exact ⟨.empty, fromPlan, variables_⟩

theorem carried_iff (built : buildContainer settings plan entry = .ok container) :
    Carried settings plan entry.1 entry.2 container ↔ NothingToLose plan entry.2 := by
  have kept := kept_of_buildContainer built
  have fromPlan := env_from_plan_iff built
  -- A container is built without a command and without arguments.
  have bare : container.command = [] ∧ container.args = [] := by
    obtain ⟨_, _, _, _, _, _, rfl⟩ := buildContainer_eq_ok.mp built
    exact ⟨rfl, rfl⟩
  constructor
  · intro carried
    exact ⟨carried.command.symm.trans bare.1, carried.args.symm.trans bare.2,
      fromPlan.mp carried.env⟩
  · rintro ⟨noCommand, noArgs, noVariables⟩
    exact
      { toKept := kept
        command := bare.1.trans noCommand.symm
        args := bare.2.trans noArgs.symm
        env := fromPlan.mpr noVariables }

/-! ### All containers -/

section

variable {deployment : Deployment}
  (built : buildDeployment settings plan workload = .ok deployment)

include built

theorem oneToOne_of_buildDeployment : OneToOne workload deployment.spec.containers := by
  unfold OneToOne
  rw [(buildDeployment_composedOf built).names]
  exact (settings.order.perm workload.spec.containers.rows).map Prod.fst

/-- What holds of each container depends on the builds of the single containers. -/
theorem eachContainer_iff {holds : String → ContainerSpec → Container → Prop} :
    EachContainer workload deployment.spec.containers holds ↔
      ∀ entry ∈ workload.spec.containers.rows, ∀ container,
        buildContainer settings plan entry = .ok container → holds entry.1 entry.2 container := by
  have visited := (buildDeployment_ok built).1
  constructor
  · intro each entry member container found
    obtain ⟨other, listed, foundToo⟩ := exists_mem_mapM visited (IterOrder.mem_range.mpr member)
    cases foundToo.symm.trans found
    have named := (buildContainer_ok found).1
    have result := each container listed entry.2
      (by rw [named]; exact GoMap.get?_eq_some.mpr member)
    rwa [named] at result
  · intro each container listed spec stored
    obtain ⟨entry, member, found⟩ := exists_of_mem_mapM visited listed
    have named := (buildContainer_ok found).1
    have listedEntry := IterOrder.mem_range.mp member
    have same : spec = entry.2 := by
      rw [named, GoMap.get?_eq_some.mpr listedEntry] at stored
      exact (Option.some.inj stored).symm
    rw [named, same]
    exact each entry listedEntry container found

/-- A Deployment that is built has the containers of the Workload, one for each name,
with their images and amounts.  The rest of them arrives exactly if the Workload's
containers have no command and no arguments and, where the plan carries no resolved
values, no variables. -/
theorem buildDeployment_preserves_iff :
    OneToOne workload deployment.spec.containers ∧
    EachContainer workload deployment.spec.containers (fun _ => Kept settings) ∧
    (Preserved settings plan workload deployment.spec.containers ↔
      ∀ name spec, workload.spec.containers.get? name = some spec → NothingToLose plan spec) := by
  have oneToOne := oneToOne_of_buildDeployment built
  have visited := (buildDeployment_ok built).1
  refine ⟨oneToOne, (eachContainer_iff built).mpr fun entry _ container found =>
    kept_of_buildContainer found, ?_⟩
  unfold Preserved
  rw [and_iff_right oneToOne, eachContainer_iff built]
  constructor
  · intro each name spec stored
    have member := GoMap.get?_eq_some.mp stored
    obtain ⟨container, _, found⟩ := exists_mem_mapM visited (IterOrder.mem_range.mpr member)
    exact (carried_iff found).mp (each _ member container found)
  · intro nothing entry member container found
    exact (carried_iff found).mpr
      (nothing entry.1 entry.2 (GoMap.get?_eq_some.mpr member))

end

/-! ### A container with and without a command -/

/-- A container that requests memory, with the given command. -/
def runnerContainer (command : List String) : ContainerSpec :=
  { image := "runner", command
    resources := some { requests := .ofList [("memory", "1Gi")], limits := .empty } }

@[irreducible] def runnerWorkload (command : List String) : Workload :=
  plainWorkload (.ofList [("app", runnerContainer command)])

theorem buildDeployment_preserves_runner :
    ∃ deployment, buildDeployment quietRuntime plainPlan (runnerWorkload []) = .ok deployment ∧
      Preserved quietRuntime plainPlan (runnerWorkload []) deployment.spec.containers := by
  obtain ⟨deployment, built⟩ := exists_of_toOption
    (show (buildDeployment quietRuntime plainPlan (runnerWorkload [])).toOption.isSome = true by
      decide +kernel)
  refine ⟨deployment, built, (buildDeployment_preserves_iff built).2.2.mpr ?_⟩
  intro name spec stored
  have bare : ∀ entry ∈ (runnerWorkload []).spec.containers.rows,
      entry.2.command = [] ∧ entry.2.args = [] ∧
        (entry.2.variables_.getD .empty).rows = [] := by
    decide +kernel
  obtain ⟨noCommand, noArgs, noVariables⟩ := bare _ (GoMap.get?_eq_some.mp stored)
  exact ⟨noCommand, noArgs, fun _ => noVariables⟩

/-- A container of a built Deployment that passes a check. -/
theorem exists_built_container {check : Container → Bool}
    (passes : ((buildDeployment settings plan workload).toOption.any fun deployment =>
      deployment.spec.containers.any check) = true) :
    ∃ deployment, buildDeployment settings plan workload = .ok deployment ∧
      ∃ container ∈ deployment.spec.containers, check container = true := by
  cases built : buildDeployment settings plan workload with
  | error fault =>
    rw [built] at passes
    cases passes
  | ok deployment =>
    rw [built] at passes
    exact ⟨deployment, rfl, List.any_eq_true.mp passes⟩

/-- The command of the Workload does not reach the Deployment, where the image's own
command runs.  With a plan that has no resolved values the raw variables of the Workload
do reach it. -/
theorem buildDeployment_drops_command :
    (∃ deployment,
      buildDeployment quietRuntime plainPlan (runnerWorkload ["serve"]) = .ok deployment ∧
      (∃ container ∈ deployment.spec.containers, ∃ spec,
        (runnerWorkload ["serve"]).spec.containers.get? container.name = some spec ∧
        spec.command = ["serve"] ∧ container.command = []) ∧
      ¬ Preserved quietRuntime plainPlan (runnerWorkload ["serve"]) deployment.spec.containers) ∧
    ∃ deployment, buildDeployment quietRuntime plainPlan loneWorkload = .ok deployment ∧
      (∃ container ∈ deployment.spec.containers, container.env = [⟨"MODE", "fast"⟩]) ∧
      planEnvironment quietRuntime plainPlan "app" = .ok .empty := by
  constructor
  · obtain ⟨deployment, built, container, listed, passes⟩ := exists_built_container
      (show ((buildDeployment quietRuntime plainPlan (runnerWorkload ["serve"])).toOption.any
        fun deployment => deployment.spec.containers.any fun container =>
          decide (container.command = [] ∧
            (runnerWorkload ["serve"]).spec.containers.get? container.name =
              some (runnerContainer ["serve"]))) = true by decide +kernel)
    obtain ⟨noCommand, stored⟩ := of_decide_eq_true passes
    refine ⟨deployment, built, ⟨container, listed, _, stored, rfl, noCommand⟩, ?_⟩
    intro preserved
    have carried := preserved.2 container listed _ stored
    have same : [] = ["serve"] := noCommand.symm.trans carried.command
    cases same
  · obtain ⟨deployment, built, container, listed, passes⟩ := exists_built_container
      (show ((buildDeployment quietRuntime plainPlan loneWorkload).toOption.any
        fun deployment => deployment.spec.containers.any fun container =>
          decide (container.env = [⟨"MODE", "fast"⟩])) = true by decide +kernel)
    exact ⟨deployment, built, ⟨container, listed, of_decide_eq_true passes⟩, rfl⟩

end ScoreOrchestrator.Runtime
