/-
Module: Proofs.PipelineRuns
Purpose: A run of the pipeline that returns without an error, taken apart into the runs
  of its phases, on any server.
-/
import ScoreOrchestrator.Proofs.Footprints

namespace ScoreOrchestrator.Controller

open Foundation Program

variable {State : Type} {service : Server State}
  {settings : Settings} {workload : Workload} {context next : PhaseContext}
  {before after : State} {events : List (EventOn State)}

/-! ### The loop over the phases -/

/-- A phase that is executed ends the loop, or hands its context on to the others. -/
theorem executeNormalPipeline_cons_cases {phase : Phase} {rest : List Phase}
    {returned : Except GoError ReconcileResult} (executed : phase.shouldSkip context = false)
    (run : (executeNormalPipeline (phase :: rest) context).Runs service before events
      (.returned returned) after) :
    ∃ next result middle early late, events = early ++ late ∧
      (phase.execute context).Runs service before early (.returned (next, result)) middle ∧
      ((∃ fault, result.error = some fault ∧ returned = .error fault) ∨
        result.error = none ∧ (result.requeue = true ∨ result.skip = true) ∧
          after = middle ∧ late = [] ∨
        result.error = none ∧ result.requeue = false ∧ result.skip = false ∧
          (executeNormalPipeline rest next).Runs service middle late (.returned returned)
            after) := by
  unfold executeNormalPipeline at run
  rw [executed] at run
  obtain ⟨⟨next, result⟩, early, late, middle, joined, head, tail⟩ := run.exists_of_bind
  refine ⟨next, result, middle, early, late, joined, head, ?_⟩
  dsimp only at tail
  split at tail
  next fault failed =>
    cases tail
    exact .inl ⟨fault, failed, rfl⟩
  next noError =>
    right
    split at tail
    next requeues =>
      cases tail
      exact .inl ⟨noError, .inl requeues, rfl, rfl⟩
    next stays =>
      split at tail
      next skips =>
        cases tail
        exact .inl ⟨noError, .inr skips, rfl, rfl⟩
      next goesOn =>
        exact .inr ⟨noError, Bool.eq_false_iff.mpr stays, Bool.eq_false_iff.mpr goesOn,
          tail⟩

/-! ### The phases -/

/-- The Workload as the validation phase hands it on. -/
def validated (settings : Settings) (workload : Workload) : Workload :=
  setInputsValidCondition (settings.clock 0) workload true Conditions.reasonSucceeded
    "Workload specification is valid"

/-- A claim phase without an error has upserted the claims and aggregated those it
listed. -/
theorem executeClaimPhase_cases {result : PhaseResult}
    (run : (executeClaimPhase settings context).Runs service before events
      (.returned (next, result)) after) (noError : result.error = none) :
    ∃ claims middle early late, events = early ++ late ∧
      (ensureClaims settings.order context.workload).Runs service before early
        (.returned (.ok ())) middle ∧
      (getClaims context.workload).Runs service middle late (.returned (.ok claims)) after ∧
      result = {} ∧
      next =
        { context with
          workload := updateWorkloadStatusFromAggregation (settings.clock 1)
            context.workload (aggregateStatus claims)
          claims
          claimAgg := aggregateStatus claims } := by
  obtain ⟨ensured, early, _, middle, joined, head, tail⟩ := run.exists_of_bind
  cases ensured with
  | error fault =>
    cases tail
    cases noError
  | ok _ =>
    obtain ⟨listed, late, _, last, joinedToo, second, rest⟩ := tail.exists_of_bind
    cases listed with
    | error fault =>
      cases rest
      cases noError
    | ok claims =>
      cases rest
      rw [List.append_nil] at joinedToo
      subst joinedToo
      exact ⟨claims, middle, early, _, joined, head, second, rfl, rfl⟩

/-- A plan phase without an error has emitted the plan of ready claims, had nothing to
emit, or gives up on a projection that fails. -/
theorem executePlanPhase_cases {result : PhaseResult}
    (run : (executePlanPhase settings context).Runs service before events
      (.returned (next, result)) after) (noError : result.error = none) :
    ∃ workload ensured middle early late, events = early ++ late ∧
      (ensurePlan settings (settings.clock 2) context.workload context.claims
        context.claimAgg).Runs service before early (.returned (workload, ensured)) middle ∧
      ((∃ fault, ensured = .error fault ∧ result.skip = true ∧ after = middle ∧ late = []) ∨
        ∃ got, ensured = .ok () ∧ result = {} ∧
          (getPlan workload).Runs service middle late (.returned got) after ∧
          next = { context with workload, plan := got.toOption }) := by
  obtain ⟨⟨workload, ensured⟩, early, late, middle, joined, head, tail⟩ := run.exists_of_bind
  refine ⟨workload, ensured, middle, early, late, joined, head, ?_⟩
  cases ensured with
  | error fault =>
    left
    dsimp only at tail
    split at tail
    · cases tail
      exact ⟨fault, rfl, rfl, rfl, rfl⟩
    · cases tail
      cases noError
  | ok _ =>
    right
    obtain ⟨got, _, _, _, joinedToo, second, rest⟩ := tail.exists_of_bind
    cases rest
    rw [List.append_nil] at joinedToo
    subst joinedToo
    exact ⟨got, rfl, rfl, second, rfl⟩

/-! ### The finalizer -/

/-- What adding the finalizer leaves of a Workload: everything but its finalizers and
its version. -/
structure Finalized (workload ensured : Workload) : Prop where
  key : ensured.key = workload.key
  spec : ensured.spec = workload.spec
  status : ensured.status = workload.status
  labels : ensured.metadata.labels = workload.metadata.labels
  annotations : ensured.metadata.annotations = workload.metadata.annotations
  generation : ensured.metadata.generation = workload.metadata.generation
  uid : ensured.metadata.uid = workload.metadata.uid
  live : ensured.isBeingDeleted = workload.isBeingDeleted
  finalizer : hasFinalizer ensured = true

/-- The stored Workload is the one that the run goes on with. -/
theorem ensureFinalizer_finalized {ensured : Workload} {before after : Store}
    {events : List ApiEvent} (stored : before.find? .workload workload.key = some workload)
    (live : workload.isBeingDeleted = false)
    (run : (ensureFinalizer workload).Runs apiServer before events
      (.returned (.ok ensured)) after) :
    Finalized workload ensured ∧ after.find? .workload workload.key = some ensured := by
  unfold ensureFinalizer at run
  split at run
  next held =>
    cases run
    exact ⟨⟨rfl, rfl, rfl, rfl, rfl, rfl, rfl, rfl, held⟩, stored⟩
  · obtain ⟨reply, after, _, rfl, served, rest⟩ := run.of_call
    cases rest
    obtain ⟨found, foundStored, _, replaced⟩ := apiServer_update_ok served
    have same : before.find? .workload workload.key = some found := foundStored
    rw [stored] at same
    cases same
    have added : hasFinalizer (workload.updatedBy
        (withFinalizers workload (workload.metadata.finalizers ++ [workloadFinalizer]))) =
          true := by
      simp [hasFinalizer, Resource.updatedBy, withFinalizers]
    have sameGeneration : (workload.updatedBy
        (withFinalizers workload (workload.metadata.finalizers ++
          [workloadFinalizer]))).metadata.generation = workload.metadata.generation :=
      if_pos rfl
    obtain ⟨same, ⟨⟩, rfl⟩ | ⟨_, ⟨⟩, rfl⟩ := Store.of_replace replaced
    · rw [same] at added
      exact ⟨⟨rfl, rfl, rfl, rfl, rfl, rfl, rfl, rfl, added⟩, stored⟩
    · refine ⟨⟨rfl, rfl, rfl, rfl, rfl, sameGeneration, rfl, rfl, added⟩,
        before.find?_commit_self .workload ?_⟩
      have unmarked : workload.metadata.deletionTimestamp.isSome = false := live
      simp [Resource.isReleased, Resource.updatedBy, withFinalizers, unmarked]

/-! ### The pipeline -/

/-- The pipeline gets to its plan phase with a context: the finalizer is there, the
claims are upserted and listed. -/
structure ReachesPlanPhase (service : Server State)
    (settings : Settings) (workload : Workload) (before : State)
    (events : List (EventOn State)) (ensured : Workload)
    (claims : List ResourceClaim) (middle : State) : Prop where
  live : ensured.isBeingDeleted = false
  phases : ∃ finalized upserted first second third, events = first ++ (second ++ third) ∧
    (ensureFinalizer workload).Runs service before first (.returned (.ok ensured))
      finalized ∧
    (ensureClaims settings.order (validated settings ensured)).Runs service finalized second
      (.returned (.ok ())) upserted ∧
    (getClaims (validated settings ensured)).Runs service upserted third
      (.returned (.ok claims)) middle

/-- The context with which it does so. -/
def claimedContext (settings : Settings) (ensured : Workload) (claims : List ResourceClaim) :
    PhaseContext where
  workload := updateWorkloadStatusFromAggregation (settings.clock 1)
    (validated settings ensured) (aggregateStatus claims)
  claims := claims
  claimAgg := aggregateStatus claims

/-- How a run without an error goes on after `EnsurePlan`: it gives up on a projection
that fails, or looks at the plan and writes the status. -/
inductive EndsAfterPlan (service : Server State)
    (settings : Settings) (context : PhaseContext) (planned : Workload) :
    Except GoError Unit → State → List (EventOn State) → State → Prop where
  | abandoned (fault : GoError) (state : State) :
      EndsAfterPlan service settings context planned (.error fault) state [] state
  | reported {settled listed after : State} {third fourth : List (EventOn State)}
      {got : Except GoError WorkloadPlan} {reported : PhaseContext} {result : PhaseResult}
      (reads : (getPlan planned).Runs service settled third (.returned got) listed)
      (writes : (executeStatusPhase settings
        { context with workload := planned, plan := got.toOption }).Runs service listed
          fourth (.returned (reported, result)) after)
      (noError : result.error = none) :
      EndsAfterPlan service settings context planned (.ok ()) settled (third ++ fourth)
        after

/-- An `EnsurePlan` without an error hands the Workload on as it is, and has emitted the
plan exactly if the claims are ready. -/
theorem ensurePlan_ok {now : Time} {planned : Workload} {claims : List ResourceClaim}
    {aggregation : ClaimAggregation}
    (run : (ensurePlan settings now workload claims aggregation).Runs service before events
      (.returned (planned, .ok ())) after) :
    planned = workload ∧
      (aggregation.ready = false ∧ events = [] ∧ after = before ∨
        aggregation.ready = true ∧ ∃ selectedBackend,
          settings.selectBackend workload = .ok selectedBackend ∧
          (Reconcile.upsertWorkloadPlan settings.order settings.codec workload claims
            selectedBackend).Runs service before events (.returned (.ok ())) after) := by
  unfold ensurePlan at run
  split at run
  next ready =>
    split at run
    · cases run
    next selectedBackend selected =>
      obtain ⟨upserted, early, late, middle, joined, head, tail⟩ := run.exists_of_bind
      cases upserted with
      | error fault =>
        dsimp only at tail
        split at tail <;> cases tail
      | ok _ =>
        cases tail
        rw [List.append_nil] at joined
        subst joined
        exact ⟨rfl, .inr ⟨ready, selectedBackend, selected, head⟩⟩
  next notReady =>
    cases run
    exact ⟨rfl, .inl ⟨Bool.eq_false_iff.mpr notReady, rfl, rfl⟩⟩

/-- The last phase of a run without an error. -/
theorem statusPhase_cases {result : ReconcileResult}
    (live : context.workload.isBeingDeleted = false)
    (run : (executeNormalPipeline [statusPhase settings] context).Runs service before events
      (.returned (.ok result)) after) :
    ∃ reported statusResult,
      (executeStatusPhase settings context).Runs service before events
        (.returned (reported, statusResult)) after ∧ statusResult.error = none := by
  obtain ⟨reported, statusResult, middle, early, late, joined, executed, ended⟩ :=
    executeNormalPipeline_cons_cases live run
  rcases ended with ⟨_, _, failed⟩ | ⟨noError, _, rfl, rfl⟩ | ⟨noError, _, _, rest⟩
  · cases failed
  · rw [List.append_nil] at joined
    subst joined
    exact ⟨reported, statusResult, executed, noError⟩
  · cases rest
    rw [List.append_nil] at joined
    subst joined
    exact ⟨reported, statusResult, executed, noError⟩

theorem ensurePlan_deletion {now : Time} {claims : List ResourceClaim}
    {aggregation : ClaimAggregation} :
    (ensurePlan settings now workload claims aggregation).Yields fun returned =>
      returned.1.isBeingDeleted = workload.isBeingDeleted := by
  unfold ensurePlan
  split
  · split
    · rfl
    · refine Yields.bind_of_forall fun upserted => ?_
      cases upserted with
      | ok _ => rfl
      | error fault =>
        dsimp only
        split <;> rfl
  · rfl

/-- A run without an error of a Workload that is not being deleted, from the claims on. -/
theorem planPhases_cases {result : ReconcileResult} (live : context.workload.isBeingDeleted = false)
    (run : (executeNormalPipeline [planPhase settings, statusPhase settings] context).Runs
      service before events (.returned (.ok result)) after) :
    ∃ planned ensuredPlan settled second rest, events = second ++ rest ∧
      (ensurePlan settings (settings.clock 2) context.workload context.claims
        context.claimAgg).Runs service before second (.returned (planned, ensuredPlan)) settled ∧
      EndsAfterPlan service settings context planned ensuredPlan settled rest after := by
  obtain ⟨next, phaseResult, middle, early, late, rfl, executed, ended⟩ :=
    executeNormalPipeline_cons_cases live run
  have noError : phaseResult.error = none := by
    rcases ended with ⟨_, _, failed⟩ | ⟨noError, _⟩ | ⟨noError, _⟩
    · cases failed
    · exact noError
    · exact noError
  obtain ⟨planned, ensuredPlan, settled, second, rest, rfl, ensuring, goesOn⟩ :=
    executePlanPhase_cases executed noError
  have liveToo : planned.isBeingDeleted = false :=
    (ensuring.of_yields ensurePlan_deletion).trans live
  refine ⟨planned, ensuredPlan, settled, second, rest ++ late, List.append_assoc .., ensuring,
    ?_⟩
  rcases goesOn with ⟨fault, rfl, skips, rfl, rfl⟩ | ⟨got, rfl, rfl, reads, rfl⟩
  · rcases ended with ⟨_, failed, _⟩ | ⟨_, _, rfl, rfl⟩ | ⟨_, _, goesOn, _⟩
    · rw [noError] at failed
      cases failed
    · exact .abandoned fault _
    · rw [skips] at goesOn
      cases goesOn
  · rcases ended with ⟨_, failed, _⟩ | ⟨_, requeues | skips, _⟩ | ⟨_, _, _, onward⟩
    · cases failed
    · cases requeues
    · cases skips
    · obtain ⟨reported, statusResult, writes, noError⟩ := statusPhase_cases liveToo onward
      exact .reported reads writes noError

/-- A run without an error of a Workload that stays reaches the plan phase. -/
theorem executePipeline_cases {result : ReconcileResult} (live : workload.isBeingDeleted = false)
    (stays : ∀ ensured first finalized, (ensureFinalizer workload).Runs service before first
      (.returned (.ok ensured)) finalized → ensured.isBeingDeleted = false)
    (run : (executePipeline settings workload).Runs service before events
      (.returned (.ok result)) after) :
    ∃ ensured claims middle planned ensuredPlan settled early second rest,
      events = early ++ (second ++ rest) ∧
      ReachesPlanPhase service settings workload before early ensured claims middle ∧
      (ensurePlan settings (settings.clock 2) (claimedContext settings ensured claims).workload
        claims (aggregateStatus claims)).Runs service middle second
          (.returned (planned, ensuredPlan)) settled ∧
      EndsAfterPlan service settings (claimedContext settings ensured claims) planned
        ensuredPlan settled rest after := by
  unfold executePipeline at run
  rw [live] at run
  obtain ⟨finalizing, first, _, finalized, rfl, head, tail⟩ := run.exists_of_bind
  cases finalizing with
  | error fault => cases tail
  | ok ensured =>
    have liveToo := stays ensured first finalized head
    obtain ⟨_, _, middle, early, late, rfl, executed, ended⟩ :=
      executeNormalPipeline_cons_cases liveToo tail
    cases executed
    rcases ended with ⟨_, failed, _⟩ | ⟨_, requeues | skips, _⟩ | ⟨_, _, _, onward⟩
    · cases failed
    · cases requeues
    · cases skips
    have executes : (claimPhase settings).shouldSkip
        { workload := validated settings ensured } = false := liveToo
    obtain ⟨next, phaseResult, reached, second, rest, rfl, executed, ended⟩ :=
      executeNormalPipeline_cons_cases executes onward
    have noError : phaseResult.error = none := by
      rcases ended with ⟨_, _, failed⟩ | ⟨noError, _⟩ | ⟨noError, _⟩
      · cases failed
      · exact noError
      · exact noError
    obtain ⟨claims, upserted, upserts, lists, rfl, upserting, listing, rfl, rfl⟩ :=
      executeClaimPhase_cases executed noError
    rcases ended with ⟨_, failed, _⟩ | ⟨_, requeues | skips, _⟩ | ⟨_, _, _, onward⟩
    · cases failed
    · cases requeues
    · cases skips
    obtain ⟨planned, ensuredPlan, settled, emits, ends, rfl, ensuring, goesOn⟩ :=
      planPhases_cases liveToo onward
    refine ⟨ensured, claims, reached, planned, ensuredPlan, settled,
      first ++ (upserts ++ lists), emits, ends, ?_, ⟨liveToo, ?_⟩, ensuring, goesOn⟩
    · simp
    · exact ⟨_, _, first, upserts, lists, rfl, head, upserting, listing⟩

end ScoreOrchestrator.Controller
