/-
Module: Proofs.TornDeployment
Purpose: Whether a Deployment that the runtime writes takes its images and its
  environment from one generation of the Workload, over every interleaving of
  user edits, pipeline runs and runtime runs.
-/
import ScoreOrchestrator.Proofs.BuiltDeployment
import ScoreOrchestrator.Proofs.CurrentGeneration

namespace ScoreOrchestrator.Runtime

open Foundation Program
open Controller

/-!
A Deployment is put together from two reads: images come from the live Workload,
environment values from the plan, which was resolved when the pipeline emitted
it.  The runtime compares the generations of the two nowhere.
-/

variable {settings : RuntimeSettings} {workers : Nat → RuntimeSettings} {worker : Nat}
  {plan : WorkloadPlan} {workload : Workload} {store : Store}

theorem desiredDeployment_composedOf {deployment : Deployment}
    (desired : desiredDeployment settings plan workload = .ok deployment) :
    ComposedOf settings plan workload deployment.spec.containers := by
  unfold desiredDeployment at desired
  cases built : buildDeployment settings plan workload with
  | error fault =>
    rw [built] at desired
    cases desired
  | ok unowned =>
    have composed := buildDeployment_composedOf built
    rw [built] at desired
    simp only [bind, Except.bind, setControllerReference] at desired
    split at desired
    · cases desired
    · split at desired
      · cases desired
      · cases desired
        exact composed

/-! ### The interleavings -/

/-- The generation of the stored Workload under a key. -/
def generationAt (key : NamespacedName) (store : Store) : Option Nat :=
  (store.find? .workload key).map fun workload => workload.metadata.generation

/-- The runtime reads a plan only while it is for the stored generation of its
Workload, and reads the Workload at the generation it had when the plan was
read. -/
def ReadsOneGeneration (history : List ApiEvent) (event : ApiEvent) : Prop :=
  (∀ plan ∈ event.request.fetched .workloadPlan event.reply,
    generationAt plan.spec.workloadRef event.before =
      some plan.spec.observedWorkloadGeneration) ∧
  ∀ workload ∈ event.request.fetched .workload event.reply,
    ∀ earlier ∈ history, (earlier.request.fetched .workloadPlan earlier.reply).isSome →
      generationAt workload.key event.before = generationAt workload.key earlier.before

instance (history : List ApiEvent) (event : ApiEvent) :
    Decidable (ReadsOneGeneration history event) :=
  inferInstanceAs (Decidable ((∀ plan ∈ _, _ = some _) ∧ ∀ workload ∈ _,
    ∀ earlier ∈ history, _ → _ = _))

/-- Everybody else: any call to the API server. -/
def AnyCall (before after : Store) : Prop :=
  ∃ (answer : Type) (request : Call answer) (reply : Except GoError answer),
    apiServer request before reply after

/-- The interleavings in which every exchange of the runtime is as `reads` has
it.  Each worker has its own settings: a run with another codec or another
iteration order of maps is the run of another worker. -/
def deploymentRules (settings : Nat → RuntimeSettings) (reads : List ApiEvent → ApiEvent → Prop) :
    Rules PlanActor Call GoError Store where
  service _ := apiServer
  starts
    | .pipeline, program => ∃ settings key, program = (reconcileWorkload settings key).discard
    | .runtime worker, program => ∃ key, program = (reconcilePlan (settings worker) key).discard
  admits
    | .pipeline, _, _ => True
    | .runtime _, history, event => reads history event
  environment := AnyCall

/-! ### Every write of the runtime -/

/-- A Deployment is sent only after a plan and a Workload were read that it is
composed of and that belong to one generation. -/
def FromOneGeneration (settings : RuntimeSettings) (history : List ApiEvent) (event : ApiEvent) :
    Prop :=
  ∀ deployment, event.request.written .deployment = some deployment →
    ∃ plan ∈ readSoFar .workloadPlan history,
      ∃ workload ∈ readSoFar .workload history,
        ComposedOf settings plan workload deployment.spec.containers ∧
        workload.metadata.generation = plan.spec.observedWorkloadGeneration

/-- The terms of the runtime.  It tolerates any change between its calls. -/
def deploymentContract (settings : Nat → RuntimeSettings) (actor : PlanActor) :
    Contract Call GoError Store where
  service := apiServer
  rely _ _ := True
  rely_refl _ := trivial
  rely_trans _ _ := trivial
  admits := (deploymentRules settings ReadsOneGeneration).admits actor
  guarantee history event :=
    match actor with
    | .pipeline => True
    | .runtime worker => FromOneGeneration (settings worker) history event

theorem fromOneGeneration_of_unwritten {event : ApiEvent}
    (unwritten : event.request.written .deployment = none) (history : List ApiEvent) :
    FromOneGeneration settings history event := by
  intro deployment sent
  rw [unwritten] at sent
  cases sent

/-- What stands in the history once both objects were read. -/
structure ReadBoth (plan : WorkloadPlan) (workload : Workload)
    (history : List ApiEvent) : Prop where
  plan_read : plan ∈ readSoFar .workloadPlan history
  workload_read : workload ∈ readSoFar .workload history
  generations : workload.metadata.generation = plan.spec.observedWorkloadGeneration

theorem ReadBoth.cons {history : List ApiEvent} (both : ReadBoth plan workload history)
    (event : ApiEvent) : ReadBoth plan workload (event :: history) where
  plan_read := readSoFar_subset (List.subset_cons_self _ _) both.plan_read
  workload_read := readSoFar_subset (List.subset_cons_self _ _) both.workload_read
  generations := both.generations

/-- The calls that the runtime makes once it has read both objects. -/
def WritesComposed (settings : RuntimeSettings) (plan : WorkloadPlan) (workload : Workload)
    ⦃answer : Type⦄ (request : Call answer) : Prop :=
  ∀ deployment, request.written .deployment = some deployment →
    ComposedOf settings plan workload deployment.spec.containers

theorem writesComposed_of_unwritten ⦃answer : Type⦄ {request : Call answer}
    (unwritten : request.written .deployment = none) :
    WritesComposed settings plan workload request := by
  intro deployment sent
  rw [unwritten] at sent
  cases sent

theorem runtimeCalls_writesComposed (settings : RuntimeSettings) (plan : WorkloadPlan)
    (workload : Workload) :
    RuntimeCalls settings plan workload (WritesComposed settings plan workload) where
  reads answer request reads := by
    apply writesComposed_of_unwritten
    cases request with
    | get | list => rfl
    | create | update | updateStatus | patch | patchStatus | delete => cases reads
  createDeployment deployment desired sent same := by
    cases same
    exact desiredDeployment_composedOf desired
  patchDeployment deployment before desired sent same := by
    cases same
    -- the patch takes over the desired spec whole
    have composed := desiredDeployment_composedOf desired
    exact composed
  createService _ := writesComposed_of_unwritten rfl
  patchService _ _ := writesComposed_of_unwritten rfl
  writeStatus _ := writesComposed_of_unwritten rfl

theorem applyPlan_fromOneGeneration {history : List ApiEvent} {state : Store}
    (both : ReadBoth plan workload history) :
    Safe (deploymentContract workers (.runtime worker)) (fun _ _ _ => True)
      (applyPlan (workers worker) plan workload) history state := by
  have makes := applyPlan_makes (runtimeCalls_writesComposed (workers worker) plan workload)
  refine (Safe.of_makes_from (ReadBoth plan workload)
    (fun _ event both => both.cons event) makes both ?_).mono fun _ _ _ _ => trivial
  intro answer request composed history before reply after both _ _
  refine ⟨fun deployment sent => ?_, trivial⟩
  exact ⟨plan, both.plan_read, workload, both.workload_read,
    composed deployment sent, both.generations⟩

theorem reconcilePlan_fromOneGeneration (key : NamespacedName) (state : Store) :
    Safe (deploymentContract workers (.runtime worker)) (fun _ _ _ => True)
      (reconcilePlan (workers worker) key) [] state := by
  intro before _ reply after _ admittedPlan
  refine ⟨fromOneGeneration_of_unwritten rfl _, ?_⟩
  simp only [done_bind]
  cases reply with
  | error fault =>
    dsimp only
    split <;> exact fun _ _ => trivial
  | ok plan =>
    dsimp only
    split
    · exact fun _ _ => trivial
    · intro between _ reply after served admittedWorkload
      refine ⟨fromOneGeneration_of_unwritten rfl _, ?_⟩
      cases reply with
      | error fault => exact fun _ _ => trivial
      | ok workload =>
        obtain ⟨found, _⟩ := apiServer_get_ok served
        have named := Store.key_of_find? found
        have current : generationAt plan.spec.workloadRef before =
            some plan.spec.observedWorkloadGeneration := admittedPlan.1 plan rfl
        have unedited : generationAt workload.key between = generationAt workload.key before :=
          admittedWorkload.2 workload rfl _ (.head _) rfl
        have live : generationAt workload.key between = some workload.metadata.generation := by
          unfold generationAt
          rw [named, found]
          rfl
        apply applyPlan_fromOneGeneration
        refine ⟨mem_readSoFar (.tail _ (.head _)) rfl,
          mem_readSoFar (.head _) rfl, ?_⟩
        rw [named] at unedited live
        rw [unedited, current] at live
        exact (Option.some.inj live).symm

/-! ### Every interleaving -/

/-- The rely/guarantee proof: what the others do in between does not matter. -/
def deploymentVerified (settings : Nat → RuntimeSettings) (initial : Store → Prop) :
    Verified (deploymentRules settings ReadsOneGeneration) initial where
  invariant _ := True
  rely actor := (deploymentContract settings actor).rely
  rely_refl actor := (deploymentContract settings actor).rely_refl
  rely_trans actor := (deploymentContract settings actor).rely_trans
  guarantee actor := (deploymentContract settings actor).guarantee
  invariant_initial _ := trivial
  invariant_environment _ _ := trivial
  invariant_exchange _ _ := trivial
  rely_environment _ _ := trivial
  rely_exchange _ _ _ := trivial
  safe {actor program state} starts _ := by
    cases actor with
    | pipeline =>
      refine (Safe.of_makes (Program.makes_true program) ?_).mono
        fun _ _ _ _ => trivial
      exact fun _ _ _ _ _ _ _ _ _ => ⟨trivial, trivial⟩
    | runtime worker =>
      obtain ⟨key, rfl⟩ := starts
      exact (reconcilePlan_fromOneGeneration key state).discard

/-- No torn Deployment: in every interleaving in which the runtime reads only
plans that are up to date, and no edit comes between its two reads, each
Deployment it writes takes images and environment, as the worker's own settings
read them, from one generation of the Workload. -/
theorem deployment_from_one_generation {settings : Nat → RuntimeSettings} {initial : Store → Prop}
    {system next : System PlanActor Call GoError Store} {worker : Nat} {history : List ApiEvent}
    {event : ApiEvent} {deployment : Deployment}
    (reached : Reachable (deploymentRules settings ReadsOneGeneration) initial system)
    (moved : System.Step (deploymentRules settings ReadsOneGeneration) system
      (.exchange (.runtime worker) history event) next)
    (written : event.request.written .deployment = some deployment) :
    ∃ plan ∈ readSoFar .workloadPlan history,
      ∃ workload ∈ readSoFar .workload history,
        ComposedOf (settings worker) plan workload deployment.spec.containers ∧
        workload.metadata.generation = plan.spec.observedWorkloadGeneration :=
  (deploymentVerified settings initial).guarantee_of_reachable reached moved deployment written

/-! ### A run that obeys the condition, and one that does not -/

/-- The interleavings in which all workers have the quiet settings. -/
abbrev quietRules : (List ApiEvent → ApiEvent → Prop) → Rules PlanActor Call GoError Store :=
  deploymentRules fun _ => quietRuntime

/-- A cluster that holds a new Workload only. -/
def webStore : Store := Store.empty.insert .workload (webWorkload "1")

/-- The cluster after a pipeline run.  Only the kernel evaluates it. -/
@[irreducible] def planned (store : Store) : Store := (pipelineRun.execute serve [] store).2.2

/-- The cluster after an edit. -/
@[irreducible] def edited (store : Store) : Store := (serve versionEdit store).2

/-- The events of a runtime run. -/
@[irreducible] def runtimeEvents (store : Store) : List ApiEvent :=
  (runtimeRun.execute serve [] store).1

section

variable {reads : List ApiEvent → ApiEvent → Prop}

theorem reachable_planned {initial : Store → Prop}
    (reached : Reachable (quietRules reads) initial { state := store, thread := fun _ => none }) :
    Reachable (quietRules reads) initial
      { state := planned store, thread := fun _ => none } := by
  unfold planned
  have starts : (quietRules reads).starts .pipeline pipelineRun := ⟨quietSettings, webApp, rfl⟩
  exact reached.run .pipeline rfl starts
    (runs_execute serve pipelineRun [] store)
    (.of_forall (fun _ _ => trivial) _ _)

theorem reachable_edited {initial : Store → Prop}
    (reached : Reachable (quietRules reads) initial { state := store, thread := fun _ => none }) :
    Reachable (quietRules reads) initial
      { state := edited store, thread := fun _ => none } := by
  unfold edited
  apply reached.step (.environment _)
  exact ⟨_, versionEdit, (serve versionEdit store).1, .inl rfl⟩

theorem reachable_planned_webStore :
    Reachable (quietRules reads) (fun store => store = webStore)
      { state := planned webStore, thread := fun _ => none } :=
  reachable_planned (.initial rfl)

/-- An event that stores a Deployment with the given containers. -/
def storesContainers (containers : List Container) (event : ApiEvent) : Bool :=
  event.reply.toOption.isSome &&
    (event.request.written .deployment).any fun deployment =>
      deployment.spec.containers = containers

/-- A runtime run that stores such a Deployment does so in some step. -/
theorem exists_deployment_step {containers : List Container}
    (reached : Reachable (quietRules reads) (fun store => store = webStore)
      { state := store, thread := fun _ => none })
    (admitted : Admitted (quietRules reads) (.runtime 0) [] (runtimeEvents store))
    (stores : (runtimeEvents store).any (storesContainers containers) = true) :
    ∃ history system next event deployment,
      history ⊆ runtimeEvents store ∧
      Reachable (quietRules reads) (fun store => store = webStore) system ∧
      System.Step (quietRules reads) system
        (.exchange (.runtime 0) history event) next ∧
      event.reply.toOption.isSome = true ∧
      event.request.written .deployment = some deployment ∧
      deployment.spec.containers = containers := by
  unfold runtimeEvents at admitted stores ⊢
  obtain ⟨event, member, storing⟩ := List.any_eq_true.mp stores
  have starts : (quietRules reads).starts (.runtime 0) runtimeRun := ⟨webApp, rfl⟩
  obtain ⟨history, system, next, past, there, step⟩ :=
    reached.exists_exchange_of_mem (.runtime 0) rfl starts
      (runs_execute serve runtimeRun [] store) admitted member
  simp only [storesContainers, Bool.and_eq_true, Option.any_eq_true,
    decide_eq_true_eq] at storing
  obtain ⟨answered, deployment, written, same⟩ := storing
  exact ⟨history, system, next, event, deployment, past, there, step, answered,
    written, same⟩

end

/-- The container of the Deployment, with the version of its image and of its
variable. -/
def webContainer (image variable_ : String) : Container where
  name := "main"
  image := "web:" ++ image
  env := [{ name := "VERSION", value := variable_ }]

instance (worker : Nat) (history : List ApiEvent) (event : ApiEvent) :
    Decidable ((quietRules ReadsOneGeneration).admits (.runtime worker) history event) :=
  inferInstanceAs (Decidable (ReadsOneGeneration history event))

/-- A runtime run right after the pipeline run writes version 1 throughout. -/
theorem deployment_from_first_generation :
    ∃ history event deployment, ∃ system next : System PlanActor Call GoError Store,
      Reachable (quietRules ReadsOneGeneration) (fun store => store = webStore) system ∧
      System.Step (quietRules ReadsOneGeneration) system
        (.exchange (.runtime 0) history event) next ∧
      event.request.written .deployment = some deployment ∧
      deployment.spec.containers = [webContainer "1" "1"] ∧
      ∃ plan ∈ readSoFar .workloadPlan history,
        ∃ workload ∈ readSoFar .workload history,
          ComposedOf quietRuntime plan workload deployment.spec.containers ∧
          workload.metadata.generation = plan.spec.observedWorkloadGeneration := by
  have admitted : Admitted (quietRules ReadsOneGeneration)
      (.runtime 0) [] (runtimeEvents (planned webStore)) := by
    decide +kernel
  have stores : (runtimeEvents (planned webStore)).any
      (storesContainers [webContainer "1" "1"]) = true := by
    decide +kernel
  obtain ⟨history, system, next, event, deployment, _, there, step, _, written,
    containers⟩ := exists_deployment_step reachable_planned_webStore admitted stores
  exact ⟨history, event, deployment, system, next, there, step, written, containers,
    deployment_from_one_generation there step written⟩

/-- If the user edits the Workload before the pipeline runs again, the runtime
combines the new image with the old variable. -/
theorem deployment_torn_by_edit :
    ∃ history event deployment, ∃ system next : System PlanActor Call GoError Store,
      Reachable (quietRules fun _ _ => True) (fun store => store = webStore) system ∧
      System.Step (quietRules fun _ _ => True) system (.exchange (.runtime 0) history event) next ∧
      event.reply.toOption.isSome = true ∧
      event.request.written .deployment = some deployment ∧
      deployment.spec.containers = [webContainer "2" "1"] ∧
      ¬ ∃ plan ∈ readSoFar .workloadPlan history,
        ∃ workload ∈ readSoFar .workload history,
          ComposedOf quietRuntime plan workload deployment.spec.containers ∧
          workload.metadata.generation = plan.spec.observedWorkloadGeneration := by
  have all : Admitted (quietRules fun _ _ => True) (.runtime 0) []
      (runtimeEvents (edited (planned webStore))) :=
    .of_forall (fun _ _ => trivial) _ _
  have stores : (runtimeEvents (edited (planned webStore))).any
      (storesContainers [webContainer "2" "1"]) = true := by
    decide +kernel
  have old : ∀ plan ∈ readSoFar .workloadPlan (runtimeEvents (edited (planned webStore))),
      plan.spec.observedWorkloadGeneration = 1 := by
    decide +kernel
  have new : ∀ workload ∈ readSoFar .workload (runtimeEvents (edited (planned webStore))),
      workload.metadata.generation = 2 := by
    decide +kernel
  obtain ⟨history, system, next, event, deployment, past, there, step, answered,
    written, containers⟩ := exists_deployment_step
      (reachable_edited reachable_planned_webStore) all stores
  refine ⟨history, event, deployment, system, next, there, step, answered, written,
    containers, ?_⟩
  intro untorn
  obtain ⟨plan, planRead, workload, workloadRead, _, same⟩ := untorn
  rw [old plan (readSoFar_subset past planRead),
    new workload (readSoFar_subset past workloadRead)] at same
  cases same

end ScoreOrchestrator.Runtime
