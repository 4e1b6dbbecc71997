/-
Module: Proofs.ReadyRule
Purpose: The readiness rule over every interleaving of pipeline and mirror runs:
  which exposures the mirror may copy without breaking it, and one that breaks
  it.
-/
import ScoreOrchestrator.Api.StatusInvariant
import ScoreOrchestrator.Proofs.Footprints

namespace ScoreOrchestrator.Controller

open Foundation Program Conditions

/-!
Two controllers write the conditions of a Workload.  The pipeline computes Ready
from the other three conditions; the mirror lays the normalized conditions of an
exposure over what it read, the type Ready included.  Any number of workers of
either kind run interleaved, call by call, and the environment may change
everything but the status of a Workload.
-/

/-- The workers that write Workload status. -/
inductive StatusWriter where
  | pipeline (worker : Nat)
  | mirror (worker : Nat)
deriving DecidableEq, Repr

/-- The programs each worker may start. -/
def statusPrograms : StatusWriter → Client Unit → Prop
  | .pipeline _, program => ∃ settings key, program = (reconcileWorkload settings key).discard
  | .mirror _, program => ∃ settings key, program = (reconcileExposure settings key).discard

/-- The interleavings in which every exchange of a mirror is as `mirrors` has
it.  Users, runtimes and provisioners may change anything but a Workload's
status. -/
def statusRules (mirrors : List ApiEvent → ApiEvent → Prop) :
    Rules StatusWriter Call GoError Store where
  service _ := apiServer
  starts := statusPrograms
  admits
    | .pipeline _, _, _ => True
    | .mirror _, history, event => mirrors history event
  environment := Store.LeavesStatuses .workload

/-- The property of a stored status. -/
def ObeysReadyRule (status : WorkloadStatus) : Prop := ReadyRule status.conditions

instance (status : WorkloadStatus) : Decidable (ObeysReadyRule status) :=
  inferInstanceAs (Decidable (ReadyRule _))

/-! ### The condition on mirroring -/

/-- Laid over a condition list, the published conditions report Ready only with
all three parts. -/
def KeepsReadyRule (published conditions : List Condition) : Prop :=
  let reported := overlaid (normalizeConditions published) conditions
  reported Conditions.ready → reported inputsValid ∧
    reported claimsReady ∧ reported runtimeReady

instance (published conditions : List Condition) :
    Decidable (KeepsReadyRule published conditions) :=
  inferInstanceAs (Decidable (_ → _ ∧ _ ∧ _))

/-- The mirrored conditions obey the rule exactly under that condition. -/
theorem readyRule_mirrorConditions (clock : Nat → Time) (published conditions : List Condition) :
    ReadyRule (mirrorConditions clock published conditions).1 ↔
      KeepsReadyRule published conditions := by
  unfold ReadyRule AllPartsTrue KeepsReadyRule mirrorConditions
  simp only [isConditionTrue_mirrorLoop]

/-- A mirror patches only where the exposure it read keeps the rule over the
conditions it read. -/
def MirrorsSoundly (history : List ApiEvent) (event : ApiEvent) : Prop :=
  event.request.isStatusPatch →
    ∀ exposure ∈ readSoFar .workloadExposure history,
      ∀ workload ∈ readSoFar .workload history,
        KeepsReadyRule exposure.status.conditions workload.status.conditions

instance (history : List ApiEvent) (event : ApiEvent) : Decidable (MirrorsSoundly history event) :=
  inferInstanceAs (Decidable (_ → ∀ exposure ∈ readSoFar .workloadExposure history,
    ∀ workload ∈ readSoFar .workload history, KeepsReadyRule _ _))

instance (worker : Nat) (history : List ApiEvent) (event : ApiEvent) :
    Decidable ((statusRules MirrorsSoundly).admits (.mirror worker) history event) :=
  inferInstanceAs (Decidable (MirrorsSoundly history event))

/-! ### Each writer keeps the rule -/

theorem obeysReadyRule_default : ObeysReadyRule default := by decide

/-- The calls of the pipeline write only statuses that obey the rule. -/
theorem pipelineCalls_keepsStatuses :
    PipelineCalls fun _ request => request.KeepsStatuses .workload ObeysReadyRule where
  reads _ _ reads := Call.Leaves.keepsStatuses (.inl reads)
  createClaim _ _ _ := trivial
  updateClaim _ _ _ _ := trivial
  detachClaim _ := trivial
  deleteClaim _ := trivial
  createPlan _ := trivial
  updatePlan _ := trivial
  updateWorkload _ := trivial
  updateWorkloadStatus runtimeNow readyNow workload plan :=
    fun _ => readyRule_computeFinalStatus runtimeNow readyNow workload plan

/-- A sound mirror patch keeps the rule whatever is stored by then. -/
theorem mirrorStatus_keepsStatuses (settings : MirrorSettings) {workload : Workload}
    {exposure : WorkloadExposure}
    (sound : KeepsReadyRule exposure.status.conditions workload.status.conditions) :
    (Call.patchStatus .workload workload
      (mirrorStatus settings workload exposure).1).KeepsStatuses .workload
        ObeysReadyRule := by
  intro _ status obeys
  have mirrored := (readyRule_mirrorConditions settings.clock
    exposure.status.conditions workload.status.conditions).mpr sound
  -- the merge patch sends the conditions only if the mirror changed them
  simp only [ObeysReadyRule, mergeStatus, mergeField]
  split
  · exact obeys
  · exact mirrored

/-- Every worker's terms. -/
def readyContract (writer : StatusWriter) : Contract Call GoError Store :=
  statusContract .workload ObeysReadyRule ((statusRules MirrorsSoundly).admits writer)

theorem reconcileWorkload_keepsRule (worker : Nat) (settings : Settings) (key : NamespacedName)
    (state : Store) :
    Safe (readyContract (.pipeline worker)) (fun _ _ _ => True)
      (reconcileWorkload settings key).discard [] state := by
  have makes := (reconcileWorkload_makes pipelineCalls_keepsStatuses settings
    key).discard
  exact (safe_of_keepsStatuses obeysReadyRule_default makes [] state).mono
    fun _ _ _ _ => trivial

/-- A read by a mirror keeps the rule. -/
theorem keeps_of_isRead {answer : Type} {request : Call answer} {before after : Store}
    {reply : Except GoError answer} (reads : request.isRead)
    (served : apiServer request before reply after) :
    before.AllStatuses .workload ObeysReadyRule → after.AllStatuses .workload ObeysReadyRule :=
  apiServer_allStatuses obeysReadyRule_default (Call.Leaves.keepsStatuses (.inl reads))
    served

theorem reconcileExposure_keepsRule (worker : Nat) (settings : MirrorSettings)
    (key : NamespacedName) (state : Store) :
    Safe (readyContract (.mirror worker)) (fun _ _ _ => True)
      (reconcileExposure settings key).discard [] state := by
  intro before _ reply after served _
  refine ⟨keeps_of_isRead rfl served, ?_⟩
  cases reply with
  | error fault => exact fun _ _ => trivial
  | ok exposure =>
    intro before _ reply after served _
    refine ⟨keeps_of_isRead rfl served, ?_⟩
    cases reply with
    | error fault => exact fun _ _ => trivial
    | ok workload =>
      simp only [done_bind, patchMirrored]
      split
      · exact fun _ _ => trivial
      · split
        · intro before _ reply after served admitted
          -- both objects stand in the history of this patch
          have sound := admitted rfl exposure
            (mem_readSoFar (.tail _ (.head _)) rfl) workload
            (mem_readSoFar (.head _) rfl)
          refine ⟨apiServer_allStatuses obeysReadyRule_default
            (mirrorStatus_keepsStatuses settings sound) served, ?_⟩
          cases reply <;> exact fun _ _ => trivial
        · exact fun _ _ => trivial

/-! ### Every interleaving -/

/-- The rely/guarantee proof: each write keeps the rule on its own. -/
theorem statusVerified : StatusVerified (statusRules MirrorsSoundly) .workload ObeysReadyRule where
  fresh := obeysReadyRule_default
  service _ := rfl
  environment := id
  safe {writer program state} starts _ := by
    cases writer with
    | pipeline worker =>
      obtain ⟨settings, key, rfl⟩ := starts
      exact reconcileWorkload_keepsRule worker settings key state
    | mirror worker =>
      obtain ⟨settings, key, rfl⟩ := starts
      exact reconcileExposure_keepsRule worker settings key state

/-- Readiness rule: as long as every mirror patch is sound, no interleaving of
pipeline and mirror runs stores Ready without all three parts. -/
theorem readyRule_of_reachable {system : System StatusWriter Call GoError Store}
    (reached : Reachable (statusRules MirrorsSoundly) (Store.EmptyStatuses .workload) system) :
    ∀ workload ∈ (system.state.table .workload).rows, ReadyRule workload.status.conditions :=
  statusVerified.allStatuses_of_reachable reached

/-! ### A run that obeys the condition, and one that does not -/

/-- A Workload with an empty status, its plan as the runtime left it, and an
exposure with the given conditions. -/
def exposedStore (published : List Condition) : Store :=
  let workload : Workload :=
    { metadata := { name := "web", ns := "default", uid := "u1", generation := 1 }
      spec := {}
      status := default }
  let plan : WorkloadPlan :=
    { metadata := { name := "web", ns := "default" }
      spec :=
        { workloadRef := ⟨"default", "web"⟩
          observedWorkloadGeneration := 1
          runtimeClass := "kubernetes"
          template := none
          resolvedValues := none
          claims := [] }
      status := { phase := .ready } }
  let exposure : WorkloadExposure :=
    { metadata := { name := "web", ns := "default" }
      spec :=
        { workloadRef := { name := "web", ns := none, uid := "u1" }
          observedWorkloadGeneration := 1
          runtimeClass := "kubernetes" }
      status := { conditions := published } }
  ((Store.empty.insert .workload workload).insert .workloadPlan plan).insert
    .workloadExposure exposure

def webKey : NamespacedName := ⟨"default", "web"⟩

def quietMirror : MirrorSettings where
  clock _ := 2
  isValidURL _ := true

/-- A published condition with status True. -/
def publishedTrue (type reason : String) : Condition where
  type := type
  status := .conditionTrue
  reason := reason
  message := ""
  lastTransitionTime := 1

/-- The cluster after one pipeline run.  Only the kernel evaluates it. -/
@[irreducible] def afterPipeline (store : Store) : Store :=
  ((reconcileWorkload quietSettings webKey).discard.execute serve [] store).2.2

/-- The cluster after one mirror run. -/
@[irreducible] def afterMirror (store : Store) : Store :=
  ((reconcileExposure quietMirror webKey).discard.execute serve [] store).2.2

theorem reachable_afterPipeline (mirrors : List ApiEvent → ApiEvent → Prop) {store : Store}
    (reached : Reachable (statusRules mirrors) (Store.EmptyStatuses .workload)
      { state := store, thread := fun _ => none }) :
    Reachable (statusRules mirrors) (Store.EmptyStatuses .workload)
      { state := afterPipeline store, thread := fun _ => none } := by
  unfold afterPipeline
  refine reached.run (.pipeline 0) rfl ?_ (runs_execute serve
    (reconcileWorkload quietSettings webKey).discard [] store) ?_
  · exact ⟨quietSettings, webKey, rfl⟩
  · exact .of_forall (fun _ _ => trivial) _ _

theorem reachable_afterMirror (mirrors : List ApiEvent → ApiEvent → Prop) {store : Store}
    (reached : Reachable (statusRules mirrors) (Store.EmptyStatuses .workload)
      { state := store, thread := fun _ => none })
    (admitted : Admitted (statusRules mirrors) (.mirror 0) []
      ((reconcileExposure quietMirror webKey).discard.execute serve [] store).1) :
    Reachable (statusRules mirrors) (Store.EmptyStatuses .workload)
      { state := afterMirror store, thread := fun _ => none } := by
  unfold afterMirror
  refine reached.run (.mirror 0) rfl ?_ (runs_execute serve
    (reconcileExposure quietMirror webKey).discard [] store) admitted
  exact ⟨quietMirror, webKey, rfl⟩

theorem emptyStatuses_exposedStore (published : List Condition) :
    (exposedStore published).EmptyStatuses .workload := by
  intro workload member
  have only : ((exposedStore published).table .workload).rows.map
      (fun workload => workload.status) = [default] := rfl
  have listed := List.mem_map_of_mem member
    (f := fun workload : Workload => workload.status)
  rw [only] at listed
  exact List.mem_singleton.mp listed

/-- A pipeline run followed by a sound mirror run reaches a ready Workload. -/
theorem readyRule_of_reachable_mirrored :
    (∃ workload ∈ ((afterMirror (afterPipeline (exposedStore
        [publishedTrue "Deployed" "Available"]))).table .workload).rows,
      isConditionTrue workload.status.conditions Conditions.ready) ∧
    ∀ workload ∈ ((afterMirror (afterPipeline (exposedStore
        [publishedTrue "Deployed" "Available"]))).table .workload).rows,
      ReadyRule workload.status.conditions := by
  have reached := reachable_afterMirror MirrorsSoundly
    (reachable_afterPipeline MirrorsSoundly (.initial (emptyStatuses_exposedStore
      [publishedTrue "Deployed" "Available"])))
    (by decide +kernel)
  have obeyed := readyRule_of_reachable reached
  exact ⟨by decide +kernel, obeyed⟩

/-- An exposure that publishes Ready itself makes the mirror store it over an
empty status. -/
theorem mirror_stores_ready_alone :
    ∃ system, Reachable (statusRules fun _ _ => True)
        (Store.EmptyStatuses .workload) system ∧
      ∃ workload ∈ (system.state.table .workload).rows,
        isConditionTrue workload.status.conditions Conditions.ready ∧
          ¬ isConditionTrue workload.status.conditions inputsValid ∧
          ¬ isConditionTrue workload.status.conditions claimsReady ∧
          ¬ isConditionTrue workload.status.conditions runtimeReady := by
  have reached := reachable_afterMirror (fun _ _ => True)
    (.initial (emptyStatuses_exposedStore [publishedTrue "Ready" "Available"]))
    (.of_forall (fun _ _ => trivial) _ _)
  refine ⟨_, reached, ?_⟩
  decide +kernel

end ScoreOrchestrator.Controller
