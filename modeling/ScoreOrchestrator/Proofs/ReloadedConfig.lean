/-
Module: Proofs.ReloadedConfig
Purpose: Which reconciler configuration a call of `Reconcile` works with, over any history
  of reloads and calls, and when the delay of a requeue is the current one.
-/
import ScoreOrchestrator.Controller.WorkloadController
import ScoreOrchestrator.Proofs.PipelineRuns

namespace ScoreOrchestrator.Controller

open Foundation Program
open Config (ReconcilerConfig ReconcilerConfigLoader ReconcilerYaml LoadFault ConfigEvent
  OrchestratorConfig defaultReconcilerConfig Duration)

variable {State : Type} {service : Server State}
  {settings : Settings} {before after : State} {events : List (EventOn State)}

/-! ### Why a call requeues -/

/-- The two reasons for a requeue. -/
inductive RequeueCause where
  | pendingDeletion
  | statusConflict
deriving DecidableEq

/-- The delay that a configuration has for it. -/
def RequeueCause.delay (config : ReconcilerConfig) : RequeueCause → Duration
  | .pendingDeletion => config.retry.defaultRequeueDelay
  | .statusConflict => config.retry.conflictRequeueDelay

/-- The delay that the settings of a pipeline have for it. -/
def RequeueCause.settled (settings : Settings) : RequeueCause → Nat
  | .pendingDeletion => settings.defaultRequeueDelay
  | .statusConflict => settings.conflictRequeueDelay

/-- A list of claims some of which are still to be deleted. -/
def ListsPending (event : EventOn State) : Prop :=
  ∃ claims, event.request.listed .resourceClaim event.reply = some claims ∧
    claimsToWaitFor claims > 0

/-- A status of a Workload that is refused with a conflict. -/
def ConflictsStatus (event : EventOn State) : Prop :=
  match event with
  | ⟨⟨.updateStatus .workload _, .error fault⟩, _, _⟩ => fault.isConflict = true
  | _ => False

/-- What the calls of a pipeline show of the reason, for the Workload it was given. -/
inductive Requeued (workload : Workload) (events : List (EventOn State)) :
    RequeueCause → Prop where
  | pendingDeletion {event : EventOn State}
      (deleting : workload.isBeingDeleted = true) (member : event ∈ events)
      (pending : ListsPending event) : Requeued workload events .pendingDeletion
  | statusConflict {event : EventOn State}
      (live : workload.isBeingDeleted = false) (member : event ∈ events)
      (conflicts : ConflictsStatus event) : Requeued workload events .statusConflict

/-- A call of `Reconcile` gets a Workload, and its pipeline shows the reason. -/
def Because (events : List (EventOn State)) (cause : RequeueCause) : Prop :=
  ∃ event rest workload, events = event :: rest ∧
    event.request.fetched .workload event.reply = some workload ∧ Requeued workload rest cause

variable {workload : Workload}

/-- Claims that were got were listed. -/
theorem getClaims_listed {claims : List ResourceClaim}
    (run : (getClaims workload).Runs service before events (.returned (.ok claims)) after) :
    ∃ event ∈ events, event.request.listed .resourceClaim event.reply = some claims := by
  obtain ⟨reply, _, _, rfl, served, rest⟩ := run.of_call
  cases reply with
  | ok found =>
    obtain rfl : claims = found := by
      simpa using (Runs.returned_of_done rest).1
    exact ⟨_, .head _, rfl⟩
  | error fault =>
    simp only [done_bind] at rest
    split at rest
    · cases rest with
      | @call _ _ _ _ _ _ reply _ _ served rest =>
        obtain rfl := (Runs.returned_of_done rest).1
        exact ⟨_, .tail _ (.head _), rfl⟩
    · cases rest

/-- A deletion waits for claims that it has just listed. -/
theorem finishDeletion_requeues {result : PhaseResult}
    (run : (finishDeletion settings workload).Runs service before events (.returned result) after)
    (requeues : result.requeue = true) :
    result.requeueAfter = settings.defaultRequeueDelay ∧ ∃ event ∈ events, ListsPending event := by
  obtain ⟨got, early, late, middle, rfl, head, tail⟩ := run.exists_of_bind
  cases got with
  | error fault =>
    obtain rfl := (Runs.returned_of_done tail).1
    cases requeues
  | ok claims =>
    dsimp only at tail
    split at tail
    next waits =>
      obtain rfl := (Runs.returned_of_done tail).1
      obtain ⟨event, member, listed⟩ := getClaims_listed head
      exact ⟨rfl, event, List.mem_append_left _ member, claims, listed, waits⟩
    next =>
      obtain ⟨removed, _, _, _, _, _, rest⟩ := Runs.exists_of_bind tail
      cases removed with
      | ok _ =>
        obtain rfl := (Runs.returned_of_done rest).1
        cases requeues
      | error fault =>
        obtain rfl := (Runs.returned_of_done rest).1
        cases requeues

theorem executeDeletionPhase_requeues {result : PhaseResult}
    (run : (executeDeletionPhase settings workload).Runs service before events
      (.returned result) after) (requeues : result.requeue = true) :
    result.requeueAfter = settings.defaultRequeueDelay ∧ ∃ event ∈ events, ListsPending event := by
  unfold executeDeletionPhase at run
  split at run
  · obtain ⟨got, early, late, middle, rfl, head, tail⟩ := run.exists_of_bind
    cases got with
    | error fault =>
      obtain rfl := (Runs.returned_of_done tail).1
      cases requeues
    | ok claims =>
      obtain ⟨processed, second, third, later, rfl, _, rest⟩ := Runs.exists_of_bind tail
      cases processed with
      | error fault =>
        obtain rfl := (Runs.returned_of_done rest).1
        cases requeues
      | ok _ =>
        obtain ⟨delay, event, member, pending⟩ := finishDeletion_requeues rest requeues
        exact ⟨delay, event,
          List.mem_append_right _ (List.mem_append_right _ member), pending⟩
  · obtain rfl := (Runs.returned_of_done run).1
    cases requeues

/-- A requeue of the loop is one of a phase. -/
theorem executeNormalPipeline_requeues {phases : List Phase} {context : PhaseContext}
    {result : ReconcileResult}
    (run : (executeNormalPipeline phases context).Runs service before events
      (.returned (.ok result)) after) (requeues : result.requeue = true) :
    ∃ phase ∈ phases, ∃ given next phaseResult first early last,
      (phase.execute given).Runs service first early (.returned (next, phaseResult)) last ∧
      early ⊆ events ∧ phaseResult.requeue = true ∧
      result.requeueAfter = phaseResult.requeueAfter := by
  induction phases generalizing context before events with
  | nil =>
    obtain rfl : result = {} := by simpa using (Runs.returned_of_done run).1
    cases requeues
  | cons phase rest ih =>
    unfold executeNormalPipeline at run
    split at run
    · obtain ⟨other, member, found⟩ := ih run
      exact ⟨other, .tail _ member, found⟩
    · obtain ⟨⟨next, phaseResult⟩, early, late, middle, rfl, head, tail⟩ := run.exists_of_bind
      dsimp only at tail
      split at tail
      · cases tail
      · split at tail
        next again =>
          cases tail
          exact ⟨phase, .head _, context, next, phaseResult, before, early, _, head,
            List.subset_append_left _ _, again, rfl⟩
        · split at tail
          · cases tail
            cases requeues
          · obtain ⟨other, member, given, passed, otherResult, first, inner, last, executed,
              inside, again, delay⟩ := ih tail
            exact ⟨other, .tail _ member, given, passed, otherResult, first, inner, last,
              executed, List.subset_append_of_subset_right _ inside, again, delay⟩

/-- The phases before the last never requeue. -/
theorem earlyPhases_never_requeue {phase : Phase} {context : PhaseContext}
    (early : phase ∈ [validationPhase settings, claimPhase settings, planPhase settings]) :
    (phase.execute context).Yields fun returned => returned.2.requeue = false := by
  simp only [List.mem_cons, List.not_mem_nil, or_false] at early
  rcases early with rfl | rfl | rfl
  · rfl
  · refine Yields.bind_of_forall fun ensured => ?_
    cases ensured with
    | error fault => rfl
    | ok _ =>
      refine Yields.bind_of_forall fun listed => ?_
      cases listed <;> rfl
  · refine Yields.bind_of_forall fun ⟨workload, ensured⟩ => ?_
    cases ensured with
    | error fault =>
      dsimp only
      split <;> rfl
    | ok _ => exact Yields.bind_of_forall fun got => rfl

/-- The status phase requeues after a conflict. -/
theorem executeStatusPhase_requeues {context next : PhaseContext} {result : PhaseResult}
    (run : (executeStatusPhase settings context).Runs service before events
      (.returned (next, result)) after) (requeues : result.requeue = true) :
    result.requeueAfter = settings.conflictRequeueDelay ∧
      ∃ event ∈ events, ConflictsStatus event := by
  obtain ⟨reply, _, _, rfl, served, rest⟩ := run.of_call
  cases reply with
  | ok stored =>
    cases rest
    cases requeues
  | error fault =>
    simp only [done_bind, pure_eq] at rest
    split at rest
    next conflict =>
      cases rest
      exact ⟨rfl, _, .head _, conflict⟩
    next =>
      cases rest
      cases requeues

/-- A pipeline requeues for one of the two reasons, with the delay that its settings have
for it. -/
theorem executePipeline_requeues {result : ReconcileResult}
    (run : (executePipeline settings workload).Runs service before events
      (.returned (.ok result)) after) (requeues : result.requeue = true) :
    ∃ cause, Requeued workload events cause ∧ result.requeueAfter = cause.settled settings := by
  unfold executePipeline at run
  split at run
  next deleting =>
    obtain ⟨phaseResult, early, late, middle, rfl, head, tail⟩ := run.exists_of_bind
    split at tail
    · cases tail
    · split at tail
      next again =>
        cases tail
        obtain ⟨delay, event, member, pending⟩ := executeDeletionPhase_requeues head again
        exact ⟨.pendingDeletion,
          .pendingDeletion deleting (List.mem_append_left _ member) pending, delay⟩
      next =>
        cases tail
        cases requeues
  next live =>
    obtain ⟨ensured, early, late, middle, rfl, head, tail⟩ := run.exists_of_bind
    cases ensured with
    | error fault => cases tail
    | ok ensured =>
      obtain ⟨phase, member, given, next, phaseResult, first, inner, last, executed, inside,
        again, delay⟩ := executeNormalPipeline_requeues tail requeues
      have split : phase ∈ [validationPhase settings, claimPhase settings,
          planPhase settings] ∨ phase = statusPhase settings := by
        simpa [normalPhases, or_assoc] using member
      rcases split with beginning | rfl
      · rw [executed.of_yields (earlyPhases_never_requeue beginning)] at again
        cases again
      · obtain ⟨conflictDelay, event, found, conflicts⟩ :=
          executeStatusPhase_requeues executed again
        exact ⟨.statusConflict, .statusConflict (Bool.eq_false_iff.mpr live)
          (List.mem_append_right _ (inside found)) conflicts, delay.trans conflictDelay⟩

/-! ### Histories -/

/-- The call has found its Workload. -/
def ReconcilerAct.finds : ReconcilerAct State → Bool
  | .reconcile (event :: _) _ => (event.request.fetched .workload event.reply).isSome
  | _ => false

/-- What an act does to the loader. -/
def WorkloadReconciler.reloaded (yaml : ReconcilerYaml) (reconciler : WorkloadReconciler) :
    ReconcilerAct State → WorkloadReconciler
  | .load loaded =>
    { reconciler with
      reconcilerConfigLoader := reconciler.reconcilerConfigLoader.map fun loader =>
        (loader.loadConfig yaml loaded).1 }
  | .watch event =>
    { reconciler with
      reconcilerConfigLoader := reconciler.reconcilerConfigLoader.map fun loader =>
        ((loader.handleEvent yaml event).map Prod.fst).getD loader }
  | .reconcile _ _ => reconciler

/-- The current configuration at the first call in a history that finds its Workload. -/
def pinnedConfig (yaml : ReconcilerYaml) :
    WorkloadReconciler → List (ReconcilerAct State) → Option ReconcilerConfig
  | _, [] => none
  | reconciler, act :: rest =>
    if act.finds then some reconciler.reconcilerConfig
    else pinnedConfig yaml (reconciler.reloaded yaml act) rest

section

variable {yaml : ReconcilerYaml} {reconciler next : WorkloadReconciler}

/-- A call without a Workload leaves the reconciler alone; any other runs the pipeline there
is, or else one with the current configuration. -/
theorem reconcile_cases {key : NamespacedName} {result : Except GoError ReconcileResult}
    (run : (reconciler.reconcile settings key).Runs service before events
      (.returned (next, result)) after) :
    ∃ event rest, events = event :: rest ∧
      ((event.request.fetched .workload event.reply = none ∧ next = reconciler ∧
          ∀ returned, result = .ok returned → returned.requeue = false) ∨
        ∃ workload middle, event.request.fetched .workload event.reply = some workload ∧
          next = { reconciler with
            pipeline := some (reconciler.pipeline.getD reconciler.reconcilerConfig) } ∧
          (executePipeline (settings.withConfig
            (reconciler.pipeline.getD reconciler.reconcilerConfig)) workload).Runs service
              middle rest (.returned result) after) := by
  obtain ⟨reply, middle, _, rfl, served, rest⟩ := run.of_call
  refine ⟨_, _, rfl, ?_⟩
  cases reply with
  | error fault =>
    left
    simp only [done_bind, pure_eq] at rest
    split at rest
    · obtain ⟨rfl, rfl⟩ := Prod.mk.inj (Runs.returned_of_done rest).1
      exact ⟨rfl, rfl, fun returned same => Except.ok.inj same ▸ rfl⟩
    · obtain ⟨rfl, rfl⟩ := Prod.mk.inj (Runs.returned_of_done rest).1
      exact ⟨rfl, rfl, nofun⟩
  | ok workload =>
    right
    refine ⟨workload, middle, rfl, ?_⟩
    simp only [done_bind] at rest
    obtain ⟨returned, early, late, last, rfl, head, tail⟩ := Runs.exists_of_bind rest
    obtain rfl := Runs.events_of_done tail
    obtain ⟨same, rfl⟩ := Runs.returned_of_done tail
    obtain ⟨rfl, rfl⟩ := Prod.mk.inj same
    exact ⟨rfl, by rwa [List.append_nil]⟩

/-- What one act does. -/
theorem eq_of_step {act : ReconcilerAct State}
    (step : ReconcilerStep service yaml reconciler act next) :
    next = if act.finds then
        { reconciler with
          pipeline := some (reconciler.pipeline.getD reconciler.reconcilerConfig) }
      else reconciler.reloaded yaml act := by
  cases step with
  | load given loaded => simp [ReconcilerAct.finds, WorkloadReconciler.reloaded, given]
  | watch given handled => simp [ReconcilerAct.finds, WorkloadReconciler.reloaded, given, handled]
  | reconcile run =>
    obtain ⟨event, rest, rfl, ⟨missing, rfl, _⟩ | ⟨workload, _, fetched, rfl, _⟩⟩ :=
      reconcile_cases run
    · simp [ReconcilerAct.finds, missing, WorkloadReconciler.reloaded]
    · simp [ReconcilerAct.finds, fetched]

/-- The pipeline keeps the configuration it was created with. -/
theorem pipeline_of_runs {acts : List (ReconcilerAct State)} {last : WorkloadReconciler}
    (history : ReconcilerRuns service yaml reconciler acts last) :
    last.pipeline = reconciler.pipeline.or (pinnedConfig yaml reconciler acts) := by
  induction history with
  | nil => simp [pinnedConfig]
  | @cons first middle last act acts step _ ih =>
    rw [ih, eq_of_step step, pinnedConfig]
    by_cases found : act.finds = true
    · rw [if_pos found, if_pos found]
      cases first.pipeline <;> rfl
    · rw [if_neg found, if_neg found]
      cases act <;> rfl

/-! ### Delays are positive -/

/-- Both delays of a configuration are positive. -/
def Positive (config : ReconcilerConfig) : Prop := ∀ cause : RequeueCause, 0 < cause.delay config

theorem positive_default : Positive defaultReconcilerConfig := by
  intro cause
  cases cause <;> decide

/-- Validation replaces delays that are not. -/
theorem positive_of_accept {extracting invalid : String} {config : OrchestratorConfig}
    {accepted : ReconcilerConfig}
    (accepts : Config.acceptReconcilerConfig yaml extracting invalid config = .ok accepted) :
    Positive accepted := by
  have positive : ∀ fallback duration : Duration, 0 < fallback →
      0 < Config.positiveOr fallback duration := by
    intro fallback duration fallbackPositive
    unfold Config.positiveOr
    split
    · exact fallbackPositive
    next above => exact Int.not_le.mp above
  unfold Config.acceptReconcilerConfig at accepts
  split at accepts
  · cases accepts
  · simp only [ReconcilerConfig.validate] at accepts
    obtain rfl := Except.ok.inj accepts
    intro cause
    cases cause with
    | pendingDeletion => exact positive (30 * Config.second) _ (by decide)
    | statusConflict => exact positive (1 * Config.second) _ (by decide)

/-- The configurations that a reconciler has are positive. -/
structure Usable (reconciler : WorkloadReconciler) : Prop where
  cached : ∀ loader, reconciler.reconcilerConfigLoader = some loader →
    Positive loader.getCachedConfig
  pinned : ∀ config, reconciler.pipeline = some config → Positive config

theorem Usable.current (usable : Usable reconciler) : Positive reconciler.reconcilerConfig := by
  unfold WorkloadReconciler.reconcilerConfig
  split
  next loader given => exact usable.cached loader given
  next => exact positive_default

theorem positive_loadConfig {loader : ReconcilerConfigLoader}
    (positive : Positive loader.getCachedConfig) (loaded : Except LoadFault OrchestratorConfig) :
    Positive (loader.loadConfig yaml loaded).1.getCachedConfig := by
  cases loaded with
  | error fault => exact positive
  | ok config =>
    simp only [ReconcilerConfigLoader.loadConfig]
    split
    next => exact positive
    next accepted accepts => exact positive_of_accept accepts

theorem positive_handleEvent {loader handled : ReconcilerConfigLoader} {event : ConfigEvent}
    {told : Option ReconcilerConfig × Option GoError} (positive : Positive loader.getCachedConfig)
    (handles : loader.handleEvent yaml event = some (handled, told)) :
    Positive handled.getCachedConfig := by
  unfold ReconcilerConfigLoader.handleEvent at handles
  split at handles
  · obtain ⟨rfl, _⟩ := Prod.mk.inj (Option.some.inj handles)
    exact positive
  · obtain ⟨rfl, _⟩ := Prod.mk.inj (Option.some.inj handles)
    exact positive_default
  all_goals
    obtain ⟨config, _, same⟩ := Option.map_eq_some_iff.mp handles
    split at same
    next =>
      obtain ⟨rfl, _⟩ := Prod.mk.inj same
      exact positive
    next accepted accepts =>
      obtain ⟨rfl, _⟩ := Prod.mk.inj same
      exact positive_of_accept accepts

theorem Usable.step {act : ReconcilerAct State} (usable : Usable reconciler)
    (step : ReconcilerStep service yaml reconciler act next) : Usable next := by
  cases step with
  | load given loaded =>
    refine ⟨fun loader same => ?_, usable.pinned⟩
    obtain rfl := Option.some.inj same
    exact positive_loadConfig (usable.cached _ given) loaded
  | watch given handled =>
    refine ⟨fun loader same => ?_, usable.pinned⟩
    obtain rfl := Option.some.inj same
    exact positive_handleEvent (usable.cached _ given) handled
  | reconcile run =>
    obtain ⟨_, _, _, ⟨_, rfl, _⟩ | ⟨_, _, _, rfl, _⟩⟩ := reconcile_cases run
    · exact usable
    · refine ⟨usable.cached, fun config same => ?_⟩
      obtain rfl := Option.some.inj same
      cases held : reconciler.pipeline with
      | none => exact usable.current
      | some config => exact usable.pinned config held

theorem Usable.runs {acts : List (ReconcilerAct State)} {last : WorkloadReconciler}
    (usable : Usable reconciler) (history : ReconcilerRuns service yaml reconciler acts last) :
    Usable last := by
  induction history with
  | nil => exact usable
  | cons step _ ih => exact ih (usable.step step)

/-! ### Requeues -/

/-- A new reconciler, with or without a loader. -/
def newWorkloadReconciler (withLoader : Bool) : WorkloadReconciler where
  reconcilerConfigLoader :=
    if withLoader then some Config.newReconcilerConfigLoader else none

theorem usable_new (withLoader : Bool) : Usable (newWorkloadReconciler withLoader) := by
  refine ⟨fun loader given => ?_,
    fun config held => absurd held.symm (Option.some_ne_none config)⟩
  cases withLoader with
  | false => cases given
  | true =>
    obtain rfl := Option.some.inj given
    exact positive_default

theorem settled_withConfig (settings : Settings) (config : ReconcilerConfig)
    (cause : RequeueCause) :
    cause.settled (settings.withConfig config) = (cause.delay config).toNat := by
  cases cause <;> rfl

/-- Over any history of reloads and calls, a call that requeues does so with the delay of the
current configuration exactly if no earlier call has found its Workload, or the
configuration at the first that has was one with the same delay. -/
theorem requeue_delay_current_iff {withLoader : Bool} {acts : List (ReconcilerAct State)}
    {result : ReconcileResult}
    (history : ReconcilerRuns service yaml (newWorkloadReconciler withLoader) acts reconciler)
    (called : ReconcilerStep service yaml reconciler (.reconcile events (.ok result)) next)
    (requeues : result.requeue = true) :
    ∃ cause, Because events cause ∧
      ((result.requeueAfter : Duration) = cause.delay reconciler.reconcilerConfig ↔
        ∀ pinned, pinnedConfig yaml (newWorkloadReconciler withLoader) acts = some pinned →
          cause.delay pinned = cause.delay reconciler.reconcilerConfig) := by
  have usable := (usable_new withLoader).runs history
  have pipeline : reconciler.pipeline =
      pinnedConfig yaml (newWorkloadReconciler withLoader) acts := pipeline_of_runs history
  cases called with
  | reconcile run =>
    obtain ⟨event, rest, rfl, ⟨_, _, stays⟩ | ⟨workload, _, fetched, _, executed⟩⟩ :=
      reconcile_cases run
    · rw [stays result rfl] at requeues
      cases requeues
    · obtain ⟨cause, requeued, delay⟩ := executePipeline_requeues executed requeues
      refine ⟨cause, ⟨event, rest, workload, rfl, fetched, requeued⟩, ?_⟩
      rw [delay, settled_withConfig, ← pipeline]
      cases held : reconciler.pipeline with
      | none =>
        have positive := usable.current cause
        simp [Int.toNat_of_nonneg positive.le]
      | some config =>
        have positive := usable.pinned config held cause
        simp [Int.toNat_of_nonneg positive.le]

end

/-! ### A deletion that waits -/

/-- A YAML package to which every section asks for a delay of a minute. -/
def patientYaml : ReconcilerYaml where
  unmarshalSection _ := .ok .null
  marshalSection _ := .ok ""
  unmarshalOver _ config :=
    .ok { config with retry := { config.retry with defaultRequeueDelay := Config.minute } }

def patientConfig : OrchestratorConfig where
  apiVersion := "score.dev/v1b1"
  kind := "OrchestratorConfig"
  metadata := { name := "orchestrator-config" }
  spec := { profiles := [], defaults := { profile := "" } }
  reconciler := some ⟨"retry: \x7bdefaultRequeueDelay: 1m\x7d"⟩

/-- A Workload that is being deleted, and its claim, which a provisioner still holds. -/
def leavingStore : Store :=
  (Store.empty.insert .workload
    { (default : Workload) with
      metadata :=
        { name := "web", ns := "shop", finalizers := [workloadFinalizer]
          deletionTimestamp := some 1 } }).insert .resourceClaim
    { (default : ResourceClaim) with
      metadata :=
        { name := "web-db", ns := "shop", finalizers := ["held"], deletionTimestamp := some 1 }
      spec := { workloadRef := { ns := "shop", name := "web" }, key := "db", type := "postgres" } }

/-- A call for that Workload: the calls it makes, and its result. -/
@[irreducible] def leavingCall (reconciler : WorkloadReconciler) :
    List ApiEvent × Outcome (WorkloadReconciler × Except GoError ReconcileResult) × Store :=
  (reconciler.reconcile quietSettings { ns := "shop", name := "web" }).execute serve []
    leavingStore

section

variable {reconciler next : WorkloadReconciler} {result : Except GoError ReconcileResult}
  (returns : (leavingCall reconciler).2.1 = .returned (next, result))
include returns

theorem leavingCall_steps : ReconcilerStep apiServer patientYaml reconciler
    (.reconcile (leavingCall reconciler).1 result) next := by
  have run := runs_execute serve
    (reconciler.reconcile quietSettings { ns := "shop", name := "web" }) [] leavingStore
  unfold leavingCall at returns ⊢
  rw [returns] at run
  exact .reconcile run

end

/-- The configuration of the loader after it has loaded the new one. -/
def reloadedReconciler : WorkloadReconciler where
  reconcilerConfigLoader :=
    some (Config.newReconcilerConfigLoader.loadConfig patientYaml (.ok patientConfig)).1
  pipeline := some defaultReconcilerConfig

def waited : ReconcileResult := { requeue := true, requeueAfter := 30000000000 }

theorem leavingCall_first : (leavingCall (newWorkloadReconciler true)).2.1 =
    .returned ({ newWorkloadReconciler true with pipeline := some defaultReconcilerConfig },
      .ok waited) := by
  decide +kernel

theorem leavingCall_second : (leavingCall reloadedReconciler).2.1 =
    .returned (reloadedReconciler, .ok waited) := by
  decide +kernel

/-- The reconciler that has loaded the new configuration before its first call. -/
def patientReconciler : WorkloadReconciler := { reloadedReconciler with pipeline := none }

/-- The reconciler after that call. -/
def pinnedReconciler : WorkloadReconciler :=
  { patientReconciler with pipeline := some patientReconciler.reconcilerConfig }

def waitedLonger : ReconcileResult := { requeue := true, requeueAfter := 60000000000 }

theorem leavingCall_patient : (leavingCall patientReconciler).2.1 =
    .returned (pinnedReconciler, .ok waitedLonger) := by
  decide +kernel

theorem leavingCall_pinned : (leavingCall pinnedReconciler).2.1 =
    .returned (pinnedReconciler, .ok waitedLonger) := by
  decide +kernel

/-- After a reload and a first call, the next call waits for as long as the configuration
says. -/
theorem requeue_delay_current_reloaded :
    ∃ acts cause,
      ReconcilerRuns apiServer patientYaml (newWorkloadReconciler true) acts pinnedReconciler ∧
      Because (leavingCall pinnedReconciler).1 cause ∧
      (waitedLonger.requeueAfter : Duration) = cause.delay pinnedReconciler.reconcilerConfig := by
  have history : ReconcilerRuns apiServer patientYaml (newWorkloadReconciler true) _
      pinnedReconciler :=
    .cons (.load rfl (.ok patientConfig)) (.cons (leavingCall_steps leavingCall_patient) (.nil _))
  obtain ⟨cause, because, agrees⟩ := requeue_delay_current_iff history
    (leavingCall_steps leavingCall_pinned) rfl
  refine ⟨_, cause, history, because, agrees.mpr fun pinned found => ?_⟩
  have held : pinnedReconciler.pipeline = some pinned := (pipeline_of_runs history).trans found
  cases held
  rfl

/-- After a reload, the next call still waits for as long as the old configuration says. -/
theorem reload_keeps_old_delay :
    ∃ acts events next,
      ReconcilerRuns apiServer patientYaml (newWorkloadReconciler true) acts reloadedReconciler ∧
      ReconcilerStep apiServer patientYaml reloadedReconciler (.reconcile events (.ok waited))
        next ∧
      Because events .pendingDeletion ∧
      reloadedReconciler.reconcilerConfig.retry.defaultRequeueDelay = Config.minute ∧
      (waited.requeueAfter : Duration) = 30 * Config.second := by
  have called := leavingCall_steps leavingCall_second
  refine ⟨_, _, _, .cons (leavingCall_steps leavingCall_first)
    (.cons (.load rfl (.ok patientConfig)) (.nil _)), called, ?_, by decide +kernel,
    by decide +kernel⟩
  have deleting : (leavingCall reloadedReconciler).1.head?.any (fun event =>
      (event.request.fetched .workload event.reply).any (·.isBeingDeleted)) = true := by
    decide +kernel
  cases called with
  | reconcile run =>
    obtain ⟨event, rest, split, ⟨_, _, stays⟩ | ⟨workload, _, fetched, _, executed⟩⟩ :=
      reconcile_cases run
    · cases stays waited rfl
    · obtain ⟨cause, requeued, _⟩ := executePipeline_requeues executed rfl
      refine ⟨event, rest, workload, split, fetched, ?_⟩
      rw [split] at deleting
      cases requeued with
      | pendingDeletion deleted member pending => exact .pendingDeletion deleted member pending
      | statusConflict live => simp [fetched, live] at deleting

end ScoreOrchestrator.Controller
