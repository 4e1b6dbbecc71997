/-
Module: Proofs.PlanFailure
Purpose: What the stored status of a Workload says after a pipeline run that
  could not emit its plan, on a server that carries out every call.
-/
import ScoreOrchestrator.Foundation.Traverse
import ScoreOrchestrator.Proofs.PipelineRuns

namespace ScoreOrchestrator

open Foundation Program Conditions

/-!
`EnsurePlan` sets RuntimeReady on the Workload in memory and returns the error.
Both ways in which the plan phase goes on from there, an error and a skip, end
the loop over the phases, so the status phase is never reached and nothing of
the failure is stored.
-/

variable {result : Except GoError ReconcileResult}

namespace Reconcile

/-! ### Unresolvable documents -/

/-- Some container variable refers to an output that is not there. -/
def MissesOutput (workload : Workload) (outputs : AvailableOutputs) : Prop :=
  ∃ container ∈ workload.spec.containers.rows,
    ∃ variables_, container.2.variables_ = some variables_ ∧
      ∃ entry ∈ variables_.rows, ∃ fault,
        resolveValue entry.2 outputs = .error fault

theorem MissesOutput.resolvedDocument {workload : Workload} {outputs : AvailableOutputs}
    (misses : MissesOutput workload outputs) (order : IterOrder) :
    ∃ fault, resolvedDocument order workload outputs = .error fault := by
  obtain ⟨container, containerMember, variables_, named, entry, entryMember, fault,
    failed⟩ := misses
  have env : ∃ fault, resolveEnv order outputs container.1 variables_ = .error fault := by
    apply mapM_error_of_mem (IterOrder.mem_range.mpr entryMember)
    simp only [failed]
    exact ⟨_, rfl⟩
  have visited : ∃ fault, resolveContainer order outputs container = .error fault := by
    obtain ⟨envFault, envFailed⟩ := env
    simp only [resolveContainer, named, envFailed]
    exact ⟨envFault, rfl⟩
  have listed : container ∈ order.range workload.spec.containers :=
    IterOrder.mem_range.mpr containerMember
  obtain ⟨documentFault, documentFailed⟩ := mapM_error_of_mem listed visited
  unfold Reconcile.resolvedDocument
  rw [documentFailed]
  exact ⟨documentFault, rfl⟩

/-- The resolved values still hold a placeholder. -/
def KeepsPlaceholder (order : IterOrder) (codec : JsonCodec) (workload : Workload)
    (outputs : AvailableOutputs) : Prop :=
  ∃ document raw, resolvedDocument order workload outputs = .ok document ∧
    codec.marshal document = .ok raw ∧
    (Projection.hasUnresolvedPlaceholders codec raw).1 = true

theorem checkResolved_error {codec : JsonCodec} {resolvedValues : RawExtension}
    (unresolved : (Projection.hasUnresolvedPlaceholders codec resolvedValues.raw).1 = true) :
    ∃ fault, checkResolved codec resolvedValues = .error fault := by
  unfold checkResolved
  split
  · exact ⟨_, rfl⟩
  · exact ⟨_, rfl⟩
  next found => simp [found] at unresolved

/-- Why the projection of a Workload fails, given the claims in a store. -/
def Unprojectable (order : IterOrder) (codec : JsonCodec) (workload : Workload)
    (claims : List ResourceClaim) (store : Store) : Prop :=
  ∃ outputs events after,
    (buildResolvedOutputsMap claims .empty).Runs healthyServer store events
      (.returned outputs) after ∧
    (MissesOutput workload outputs ∨
      KeepsPlaceholder order codec workload outputs)

section

variable {order : IterOrder} {codec : JsonCodec} {workload : Workload}
  {claims : List ResourceClaim} {selectedBackend : SelectedBackend}
  {store final : Store} {events : List ApiEvent}

theorem emit_error {write : WorkloadPlanSpec → Client (Except GoError Unit)}
    {result : Except GoError Unit} (unprojectable : Unprojectable order codec workload claims store)
    (run : (upsertWorkloadPlan.emit order codec workload claims selectedBackend write).Runs
      healthyServer store events (.returned result) final) : ∃ fault, result = .error fault := by
  obtain ⟨outputs, built, middle, building, reasons⟩ := unprojectable
  obtain ⟨resolved, _, _, _, _, resolving, rest⟩ := run.exists_of_bind
  obtain ⟨outputs, _, _, _, _, head, tail⟩ := resolving.exists_of_bind
  obtain ⟨rfl, rfl⟩ := head.returned_unique building
  rcases reasons with misses | ⟨document, raw, resolves, marshalled, placeholder⟩
  · obtain ⟨fault, failed⟩ := misses.resolvedDocument order
    simp only [failed] at tail
    cases tail
    cases rest
    exact ⟨_, rfl⟩
  · simp only [resolves, marshalled] at tail
    cases tail
    have gated : ∃ fault, checkResolved codec ⟨raw⟩ = .error fault :=
      checkResolved_error placeholder
    obtain ⟨fault, refused⟩ := gated
    simp only [refused] at rest
    cases rest
    exact ⟨_, rfl⟩

/-- An upsert of a plan whose projection fails returns an error. -/
theorem upsertWorkloadPlan_error {result : Except GoError Unit}
    (unprojectable : Unprojectable order codec workload claims store)
    (run : (upsertWorkloadPlan order codec workload claims selectedBackend).Runs healthyServer store
      events (.returned result) final) : ∃ fault, result = .error fault := by
  unfold upsertWorkloadPlan at run
  split at run
  · cases run
    exact ⟨_, rfl⟩
  next named =>
    rw [if_neg named] at run
    obtain ⟨reply, _, _, rfl, served, rest⟩ := run.of_call
    obtain rfl := apiServer_of_isRead rfl (apiServer_of_healthyServer served)
    cases reply with
    | ok plan =>
      simp only [done_bind] at rest
      exact emit_error unprojectable rest
    | error fault =>
      simp only [done_bind] at rest
      split at rest
      · exact emit_error unprojectable rest
      · cases rest
        exact ⟨_, rfl⟩

end

end Reconcile

namespace Controller

variable {workload : Workload}

/-! ### Failures of the plan phase -/

/-- The run of the pipeline enters the plan phase with a context, in a state. -/
def EntersPlanPhase (settings : Settings) (workload : Workload) (store : Store)
    (context : PhaseContext) (middle : Store) : Prop :=
  ∃ ensured between early late,
    (ensureFinalizer workload).Runs healthyServer store early
      (.returned (.ok ensured)) between ∧
    (runPhases [validationPhase settings, claimPhase settings]
        { workload := ensured }).Runs healthyServer
      between late (.returned (.ok context)) middle

/-- Why no plan is emitted although the claims are ready, with the reason that
the status owes for it. -/
inductive PlanFailure (settings : Settings) (workload : Workload) (store : Store) :
    String → Prop where
  | backendSelection {context : PhaseContext} {middle : Store} {fault : GoError}
      (enters : EntersPlanPhase settings workload store context middle)
      (ready : context.claimAgg.ready = true)
      (failed : settings.selectBackend context.workload = .error fault) :
      PlanFailure settings workload store reasonRuntimeSelecting
  | projection {context : PhaseContext} {middle : Store}
      {selectedBackend : Reconcile.SelectedBackend}
      (enters : EntersPlanPhase settings workload store context middle)
      (ready : context.claimAgg.ready = true)
      (selected : settings.selectBackend context.workload = .ok selectedBackend)
      (unprojectable : Reconcile.Unprojectable settings.order settings.codec
        context.workload context.claims middle) :
      PlanFailure settings workload store reasonProjectionError

/-- A status with RuntimeReady=False for a reason, and Ready=False. -/
def reportsFailure (reason : String) (status : WorkloadStatus) : Bool :=
  (getCondition status.conditions runtimeReady).any
      (fun condition => condition.status = .conditionFalse && condition.reason = reason) &&
    (getCondition status.conditions Conditions.ready).any
      (fun condition => condition.status = .conditionFalse)

/-- The stored Workload reports a failure. -/
def ReportsFailure (store : Store) (key : NamespacedName) (reason : String) : Prop :=
  ∃ workload, store.find? .workload key = some workload ∧
    reportsFailure reason workload.status = true

instance (store : Store) (key : NamespacedName) (reason : String) :
    Decidable (ReportsFailure store key reason) :=
  decidable_of_iff
    ((store.find? .workload key).any
      (fun workload => reportsFailure reason workload.status) = true)
    (by simp [ReportsFailure, Option.any_eq_true])

/-! ### The plan phase ends the loop -/

section

variable {settings : Settings} {context : PhaseContext} {store final : Store}
  {events : List ApiEvent}

/-- What `EnsurePlan` returns when the plan cannot be emitted. -/
theorem ensurePlan_error {now : Time} {claims : List ResourceClaim} {aggregation : ClaimAggregation}
    {returned : Workload × Except GoError Unit} (ready : aggregation.ready = true)
    (fails : (∃ fault, settings.selectBackend workload = .error fault) ∨
      Reconcile.Unprojectable settings.order settings.codec workload claims store)
    (run : (ensurePlan settings now workload claims aggregation).Runs healthyServer store events
      (.returned returned) final) : ∃ fault, returned.2 = .error fault := by
  unfold ensurePlan at run
  rw [if_pos ready] at run
  split at run
  · cases run
    exact ⟨_, rfl⟩
  next selectedBackend selected =>
    have unprojectable := fails.resolve_left (by simp [selected])
    obtain ⟨upserted, _, _, _, _, head, tail⟩ := run.exists_of_bind
    obtain ⟨fault, rfl⟩ := Reconcile.upsertWorkloadPlan_error unprojectable head
    dsimp only at tail
    split at tail <;> cases tail <;> exact ⟨_, rfl⟩

/-- The phase then ends the pipeline, with an error or with a skip. -/
theorem executePlanPhase_ends {after : PhaseContext} {result : PhaseResult}
    (ready : context.claimAgg.ready = true)
    (fails : (∃ fault, settings.selectBackend context.workload = .error fault) ∨
      Reconcile.Unprojectable settings.order settings.codec context.workload context.claims store)
    (run : (executePlanPhase settings context).Runs healthyServer store events
      (.returned (after, result)) final) : result.error ≠ none ∨ result.skip = true := by
  obtain ⟨⟨workload, ensured⟩, _, _, _, _, head, tail⟩ := run.exists_of_bind
  obtain ⟨fault, failed⟩ := ensurePlan_error ready fails head
  obtain rfl : ensured = .error fault := failed
  dsimp only at tail
  split at tail
  · cases tail
    exact .inr rfl
  · cases tail
    exact .inl (by simp)

/-- The phases before the status is written write no Workload. -/
theorem phaseCalls_leaves_workload : PhaseCalls fun _ request => request.Leaves .workload where
  reads _ _ reads := .inl reads
  createClaim _ _ _ := .inr (by simp [Call.kind])
  updateClaim _ _ _ _ := .inr (by simp [Call.kind])
  createPlan _ := .inr (by simp [Call.kind])
  updatePlan _ := .inr (by simp [Call.kind])

/-- From a failing plan phase on no Workload is written. -/
theorem remainingPhases_table (ready : context.claimAgg.ready = true)
    (fails : (∃ fault, settings.selectBackend context.workload = .error fault) ∨
      Reconcile.Unprojectable settings.order settings.codec context.workload
        context.claims store) (run : (executeNormalPipeline [planPhase settings, statusPhase
      settings] context).Runs healthyServer store events (.returned result) final) :
    final.table .workload = store.table .workload := by
  unfold executeNormalPipeline at run
  split at run
  next skipped =>
    -- both phases are skipped on the same condition
    have skippedToo : (statusPhase settings).shouldSkip context = true := skipped
    simp only [executeNormalPipeline, skippedToo, if_true] at run
    cases run
    rfl
  next =>
    obtain ⟨⟨after, phaseResult⟩, _, _, middle, _, head, tail⟩ := run.exists_of_bind
    have unwritten := table_of_makes_leaves
      (executePlanPhase_makes phaseCalls_leaves_workload settings context)
      (runs_apiServer_of_healthyServer head)
    rw [← unwritten]
    dsimp only at tail
    split at tail
    · cases tail
      rfl
    next noError =>
      have skips : phaseResult.skip = true :=
        (executePlanPhase_ends ready fails head).resolve_left
          (fun failed => failed noError)
      split at tail <;> cases tail <;> rfl

/-- The part of a pipeline run that comes before the plan phase keeps the stored
status. -/
theorem EntersPlanPhase.status (stored : store.find? .workload workload.key = some workload)
    (live : workload.isBeingDeleted = false)
    (enters : EntersPlanPhase settings workload store context final) :
    ∃ next, final.find? .workload workload.key = some next ∧
      next.status = workload.status := by
  obtain ⟨ensured, between, early, late, head, tail⟩ := enters
  obtain ⟨finalized, found⟩ :=
    ensureFinalizer_finalized stored live (runs_apiServer_of_healthyServer head)
  have makes : (runPhases [validationPhase settings, claimPhase settings]
      { workload := ensured }).Makes fun _ request => request.Leaves .workload := by
    apply runPhases_makes
    intro phase member next
    simp only [List.mem_cons, List.not_mem_nil, or_false] at member
    rcases member with rfl | rfl
    · trivial
    · exact executeClaimPhase_makes phaseCalls_leaves_workload.claimCalls
        phaseCalls_leaves_workload.reads settings next
  have unwritten := table_of_makes_leaves makes (runs_apiServer_of_healthyServer tail)
  unfold Store.find? at found ⊢
  rw [unwritten]
  exact ⟨ensured, found, finalized.status⟩

/-- A run of the pipeline goes through the plan phase as it entered it. -/
theorem EntersPlanPhase.rest {middle : Store} (live : workload.isBeingDeleted = false)
    (enters : EntersPlanPhase settings workload store context middle)
    (run : (executePipeline settings workload).Runs healthyServer store
      events (.returned result) final) :
    ∃ later, (executeNormalPipeline [planPhase settings, statusPhase settings] context).Runs
      healthyServer middle later (.returned result) final := by
  obtain ⟨ensured, between, early, late, head, tail⟩ := enters
  unfold executePipeline at run
  rw [live] at run
  obtain ⟨finalized, _, _, _, _, first, second⟩ := run.exists_of_bind
  obtain ⟨rfl, rfl⟩ := first.returned_unique head
  have split : normalPhases settings =
      [validationPhase settings, claimPhase settings] ++
        [planPhase settings, statusPhase settings] := rfl
  simp only [split, executeNormalPipeline_append] at second
  obtain ⟨reached, _, _, _, _, third, fourth⟩ := second.exists_of_bind
  obtain ⟨rfl, rfl⟩ := third.returned_unique tail
  exact ⟨_, fourth⟩

/-- A run whose plan phase fails leaves the stored status as it was. -/
theorem planFailure_status {reason : String}
    (stored : store.find? .workload workload.key = some workload)
    (live : workload.isBeingDeleted = false) (failure : PlanFailure settings workload store reason)
    (run : (executePipeline settings workload).Runs healthyServer store
      events (.returned result) final) :
    ∃ next, final.find? .workload workload.key = some next ∧
      next.status = workload.status := by
  have unreported : ∀ {context middle},
      EntersPlanPhase settings workload store context middle →
      context.claimAgg.ready = true →
      ((∃ fault, settings.selectBackend context.workload = .error fault) ∨
        Reconcile.Unprojectable settings.order settings.codec context.workload
          context.claims middle) →
      ∃ next, final.find? .workload workload.key = some next ∧
        next.status = workload.status := by
    intro context middle enters ready fails
    obtain ⟨later, rest⟩ := enters.rest live run
    have unwritten := remainingPhases_table ready fails rest
    have kept := enters.status stored live
    rwa [Store.find?_of_table unwritten]
  cases failure with
  | backendSelection enters ready failed => exact unreported enters ready (.inl ⟨_, failed⟩)
  | projection enters ready selected unprojectable =>
    exact unreported enters ready (.inr unprojectable)

/-- After a run whose plan phase fails, the stored status reports the failure
exactly if it reported it before. -/
theorem reportsFailure_of_planFailure_iff {workload : Workload} {reason : String}
    {result : Except GoError ReconcileResult}
    (stored : store.find? .workload workload.key = some workload)
    (live : workload.isBeingDeleted = false) (failure : PlanFailure settings workload store reason)
    (run : (executePipeline settings workload).Runs healthyServer store
      events (.returned result) final) :
    ReportsFailure final workload.key reason ↔ reportsFailure reason workload.status = true := by
  obtain ⟨next, found, same⟩ := planFailure_status stored live failure run
  constructor
  · rintro ⟨other, foundOther, reports⟩
    rw [found] at foundOther
    cases foundOther
    rw [← same]
    exact reports
  · intro reports
    exact ⟨next, found, by rw [same]; exact reports⟩

end

/-! ### A failure reported before, and failures nobody hears of -/

/-- A stored Workload with the finalizer and one container variable. -/
def finalizedWorkload (value : String) (conditions : List Condition) : Workload where
  metadata :=
    { name := "web"
      ns := "default"
      uid := "u1"
      generation := 1
      resourceVersion := 1
      finalizers := [workloadFinalizer] }
  spec :=
    { containers := .ofList
        [("main",
          { image := "nginx", variables_ := some (.ofList [("VALUE", value)]) })] }
  status := { conditions }

/-- A cluster with that Workload only. -/
def finalizedStore (value : String) (conditions : List Condition) : Store :=
  Store.empty.insert .workload (finalizedWorkload value conditions)

/-- Settings under which no backend can be selected. -/
def unselectable : Settings :=
  { quietSettings with
    selectBackend := fun _ => .error { text := "no backend candidates" } }

/-- The phases before the plan phase, run on the store. -/
@[irreducible] def earlyPhases (settings : Settings) (workload : Workload) (store : Store) :=
  (runPhases [validationPhase settings, claimPhase settings] { workload }).execute
    serve [] store

/-- The pipeline, run on the store. -/
@[irreducible] def pipelineRun (settings : Settings) (workload : Workload) (store : Store) :=
  (executePipeline settings workload).execute serve [] store

theorem runs_pipelineRun (settings : Settings) (workload : Workload) (store : Store)
    (returned : (pipelineRun settings workload store).2.1.passes fun _ => true) :
    ∃ result, (executePipeline settings workload).Runs healthyServer store
      (pipelineRun settings workload store).1 (.returned result)
      (pipelineRun settings workload store).2.2 := by
  have run := runs_execute_reliable serve (executePipeline settings workload)
    store
  obtain ⟨result, same, _⟩ := Outcome.exists_of_passes returned
  refine ⟨result, ?_⟩
  rw [← same]
  unfold pipelineRun
  exact run

/-- The computed early phases enter the plan phase. -/
theorem exists_entersPlanPhase (settings : Settings) (workload : Workload) (store : Store)
    (check : PhaseContext → Bool) (finalized : hasFinalizer workload = true)
    (passed : (earlyPhases settings workload store).2.1.passes
      fun reached => reached.toOption.any check) :
    ∃ context middle, EntersPlanPhase settings workload store context middle ∧
      check context = true := by
  have kept : ensureFinalizer workload = .done (.ok workload) := by
    simp [ensureFinalizer, finalized]
  have first : (ensureFinalizer workload).Runs healthyServer store []
      (.returned (.ok workload)) store := by
    rw [kept]
    exact .done _ _
  have second := runs_execute_reliable serve
    (runPhases [validationPhase settings, claimPhase settings] { workload }) store
  obtain ⟨reached, same, checked⟩ := Outcome.exists_of_passes passed
  unfold earlyPhases at same
  rw [same] at second
  cases reached with
  | error result => cases checked
  | ok context => exact ⟨context, _, ⟨workload, store, _, _, first, second⟩, checked⟩

/-- Backend selection fails for every Workload that gets to the plan phase with
its claims ready. -/
theorem planFailure_unselectable {store : Store} (finalized : hasFinalizer workload = true)
    (passed : (earlyPhases unselectable workload store).2.1.passes
      fun reached => reached.toOption.any fun context => context.claimAgg.ready) :
    PlanFailure unselectable workload store reasonRuntimeSelecting := by
  obtain ⟨context, middle, enters, ready⟩ :=
    exists_entersPlanPhase unselectable workload store _ finalized passed
  exact .backendSelection enters ready rfl

/-- A container variable that refers to the output of a resource without a
claim. -/
def danglingValue : String := "$\x7bresources.db.password\x7d"

theorem missesOutput_danglingValue (conditions : List Condition) :
    Reconcile.MissesOutput (finalizedWorkload danglingValue conditions) .empty := by
  refine ⟨_, .head _, _, rfl, _, .head _, ?_⟩
  have failed : (Reconcile.resolveValue danglingValue .empty).toOption = none := by
    decide +kernel
  cases resolved : Reconcile.resolveValue danglingValue .empty with
  | error fault => exact ⟨fault, rfl⟩
  | ok value =>
    rw [resolved] at failed
    cases failed

theorem planFailure_danglingValue :
    PlanFailure quietSettings (finalizedWorkload danglingValue [])
      (finalizedStore danglingValue []) reasonProjectionError := by
  obtain ⟨context, middle, enters, checked⟩ := exists_entersPlanPhase
    quietSettings (finalizedWorkload danglingValue [])
    (finalizedStore danglingValue [])
    (fun context => context.claimAgg.ready && context.claims.isEmpty &&
      decide (context.workload.spec = (finalizedWorkload danglingValue []).spec))
    rfl (by decide +kernel)
  simp only [Bool.and_eq_true, List.isEmpty_iff, decide_eq_true_eq] at checked
  obtain ⟨⟨ready, none⟩, spec⟩ := checked
  refine .projection enters ready rfl ⟨.empty, [], middle, ?_, .inl ?_⟩
  · rw [none]
    exact .done _ _
  · unfold Reconcile.MissesOutput
    rw [spec]
    exact missesOutput_danglingValue []

/-- A condition with status False. -/
def failedCondition (type reason : String) : Condition where
  type := type
  status := .conditionFalse
  reason := reason
  message := ""
  lastTransitionTime := 0

/-- The conditions of a Workload whose backend could not be selected before. -/
def selectingConditions : List Condition :=
  [failedCondition runtimeReady reasonRuntimeSelecting,
    failedCondition Conditions.ready reasonRuntimeSelecting]

/-- A report from before stays. -/
theorem reportsFailure_selectingConditions :
    ReportsFailure (pipelineRun unselectable (finalizedWorkload "fast" selectingConditions)
        (finalizedStore "fast" selectingConditions)).2.2
      ⟨"default", "web"⟩ reasonRuntimeSelecting := by
  obtain ⟨result, run⟩ := runs_pipelineRun unselectable
    (finalizedWorkload "fast" selectingConditions)
    (finalizedStore "fast" selectingConditions) (by decide +kernel)
  have failure : PlanFailure unselectable (finalizedWorkload "fast" selectingConditions)
      (finalizedStore "fast" selectingConditions) reasonRuntimeSelecting :=
    planFailure_unselectable rfl (by decide +kernel)
  have reported : reportsFailure reasonRuntimeSelecting
      (finalizedWorkload "fast" selectingConditions).status = true := by
    decide +kernel
  have stored : (finalizedStore "fast" selectingConditions).find? .workload
      (finalizedWorkload "fast" selectingConditions).key =
        some (finalizedWorkload "fast" selectingConditions) := by
    decide +kernel
  exact (reportsFailure_of_planFailure_iff stored rfl failure run).mpr reported

/-- With an empty status before, neither a failed backend selection nor a
missing output is reported after the run. -/
theorem planFailures_unreported :
    (∃ events result final,
      (executePipeline unselectable (finalizedWorkload "fast" [])).Runs healthyServer
        (finalizedStore "fast" []) events (.returned result) final ∧
      PlanFailure unselectable (finalizedWorkload "fast" [])
        (finalizedStore "fast" []) reasonRuntimeSelecting ∧
      ¬ ReportsFailure final ⟨"default", "web"⟩
        reasonRuntimeSelecting) ∧
    (∃ events result final,
      (executePipeline quietSettings (finalizedWorkload danglingValue [])).Runs healthyServer
        (finalizedStore danglingValue []) events (.returned result) final ∧
      PlanFailure quietSettings (finalizedWorkload danglingValue [])
        (finalizedStore danglingValue []) reasonProjectionError ∧
      ¬ ReportsFailure final ⟨"default", "web"⟩
        reasonProjectionError) := by
  constructor
  · obtain ⟨result, run⟩ := runs_pipelineRun unselectable
      (finalizedWorkload "fast" []) (finalizedStore "fast" []) (by decide +kernel)
    refine ⟨_, result, _, run, ?_, ?_⟩
    · exact planFailure_unselectable rfl (by decide +kernel)
    · decide +kernel
  · obtain ⟨result, run⟩ := runs_pipelineRun quietSettings
      (finalizedWorkload danglingValue []) (finalizedStore danglingValue [])
      (by decide +kernel)
    refine ⟨_, result, _, run, planFailure_danglingValue, ?_⟩
    decide +kernel

end Controller

end ScoreOrchestrator
