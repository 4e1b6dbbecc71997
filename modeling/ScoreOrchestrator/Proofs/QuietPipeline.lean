/-
Module: Proofs.QuietPipeline
Purpose: When a run of the pipeline changes nothing, however it ends, on a server whose
  lists may come in any order.
-/
import ScoreOrchestrator.Proofs.ClaimUpserts
import ScoreOrchestrator.Proofs.PipelineRuns
import ScoreOrchestrator.Proofs.PlanFreshness
import ScoreOrchestrator.Proofs.ProjectionOrder

namespace ScoreOrchestrator.Controller

open Foundation Program Conditions
open Reconcile (AvailableOutputs SelectedBackend buildResolvedOutputsMap desiredPlanSpec
  planKey projected upsertWorkloadPlan workloadPlanSpecEqual)

variable {context : PhaseContext}

/-! ### Runs that change nothing -/

/-- The terms of a run in which no call changes the store. -/
def stillContract (admits : ApiEvent → Prop) : Contract Call GoError Store where
  service := shufflingServer
  rely before after := after = before
  rely_refl _ := rfl
  rely_trans one two := two.trans one
  admits _ event := admits event
  guarantee _ event := event.after = event.before

/-- The program changes nothing in this state, as long as its exchanges are admitted, and
returns only values for which `post` holds. -/
def Still {α : Type} (admits : ApiEvent → Prop) (state : Store) (post : α → Prop)
    (program : Client α) : Prop :=
  ∀ history, Safe (stillContract admits) (fun value _ _ => post value) program
    history state

/-- A list of claims comes with these claims, in this order. -/
def ListsAs (claims : List ResourceClaim) (event : ApiEvent) : Prop :=
  ∀ listed, event.request.listed .resourceClaim event.reply = some listed → listed = claims

section

variable {admits : ApiEvent → Prop} {state : Store} {α β : Type}

/-- Whatever holds where a program ends holds where it started. -/
theorem safe_state {post : α → List ApiEvent → Store → Prop} {program : Client α}
    {history : List ApiEvent} (safe : Safe (stillContract admits) post program history state) :
    Safe (stillContract admits)
      (fun value history later => post value history later ∧ later = state) program history
      state := by
  induction program generalizing history with
  | done value => exact fun later moved => ⟨safe later moved, moved⟩
  | crash => trivial
  | call request next ih =>
    intro before moved reply after answered admitted
    obtain rfl : before = state := moved
    obtain ⟨kept, rest⟩ := safe before rfl reply after answered admitted
    obtain rfl : after = before := kept
    exact ⟨rfl, ih reply rest⟩

namespace Still

variable {post : α → Prop} {program : Client α}

theorem final_eq {final : Store} {events : List ApiEvent} {outcome : Outcome α}
    (still : Still admits state post program)
    (run : program.Runs shufflingServer state events outcome final)
    (admitted : ∀ event ∈ events, admits event) : final = state := by
  have kept := ((still []).sound run (.of_mem (fun event member _ => admitted event member)
    [])).1.of_mem fun _ _ still => still
  clear still admitted
  induction run with
  | done | crash | interrupted => rfl
  | call _ _ ih =>
    have still := kept _ (.head _)
    exact (ih fun event later => kept event (.tail _ later)).trans still

theorem done {value : α} (holds : post value) : Still admits state post (.done value) :=
  fun _ _ _ => holds

theorem mono {weaker : α → Prop} (still : Still admits state post program)
    (implies : ∀ value, post value → weaker value) : Still admits state weaker program :=
  fun history => (still history).mono fun value _ _ => implies value

theorem bind {first : Client β} {rest : β → Client α}
    (still : Still admits state (fun value => Still admits state post (rest value)) first) :
    Still admits state post (first.bind rest) := by
  intro history
  apply Safe.bind
  refine (safe_state (still history)).mono ?_
  rintro value history _ ⟨onward, rfl⟩
  exact onward history

/-- A call that is carried out and leaves the store as it is. -/
theorem call {answer : Type} {request : Call answer} {reply : Except GoError answer}
    {next : Except GoError answer → Client α} (direct : request.isList = false)
    (served : serve request state = (reply, state)) (rest : Still admits state post (next reply)) :
    Still admits state post (.call request next) := by
  intro history before moved other after answered _
  obtain rfl : before = state := moved
  have same : (reply, before) = (other, after) :=
    served.symm.trans (healthyServer_of_shufflingServer direct answered)
  cases same
  exact ⟨rfl, rest _⟩

/-- A list leaves the store as it is and comes in some order. -/
theorem list {kind : Kind} {selector : ListSelector}
    {next : Except GoError (List kind.Object) → Client α}
    (rest : ∀ listed, listed.Perm ((state.table kind).rows.filter (selector.selects kind)) →
      admits
        { request := .list kind selector, reply := .ok listed, before := state
          after := state } →
      Still admits state post (next (.ok listed))) :
    Still admits state post (.call (.list kind selector) next) := by
  intro history before moved reply after answered admitted
  obtain rfl : before = state := moved
  obtain ⟨rfl, listed, rfl, permuted⟩ := shufflingServer_list answered
  exact ⟨rfl, rest listed permuted admitted _⟩

/-- Reading changes nothing, and gives what a run alone would read. -/
theorem of_reads
    (makes : program.Makes fun _ request => request.isRead = true ∧ request.isList = false) :
    Still admits state
      (fun value => ∃ events, program.Runs healthyServer state events
        (.returned value) state) program := by
  intro history
  induction program generalizing history with
  | done value => exact fun _ _ => ⟨[], .done value state⟩
  | crash => trivial
  | call request next ih =>
    intro before moved reply after answered _
    obtain rfl : before = state := moved
    have served := healthyServer_of_shufflingServer makes.1.2 answered
    obtain rfl : after = before :=
      apiServer_of_isRead makes.1.1 (apiServer_of_healthyServer served)
    refine ⟨rfl, (ih reply (makes.2 reply) _).mono ?_⟩
    rintro value _ _ ⟨events, run⟩
    exact ⟨_, .call served run⟩

end Still

/-- A phase that changes nothing, and after which the others change nothing. -/
theorem executeNormalPipeline_still {phase : Phase} {rest : List Phase}
    (executed : phase.shouldSkip context = false) (still : Still admits state
      (fun returned => returned.2.error = none → returned.2.skip = false →
        Still admits state (fun _ => True) (executeNormalPipeline rest returned.1))
      (phase.execute context)) :
    Still admits state (fun _ => True) (executeNormalPipeline (phase :: rest) context) := by
  intro history
  apply executeNormalPipeline_cons_safe
  · intro skipped
    rw [executed] at skipped
    cases skipped
  · intro _
    refine (safe_state (still history)).mono ?_
    rintro returned history _ ⟨onward, rfl⟩ noError goesOn
    exact onward noError goesOn history

end

/-! ### The status that a run reports -/

/-- What the status says of the runtime, by the plan that was found. -/
def runtimeReport : Option WorkloadPlan → Bool × String × String
  | none => (false, reasonRuntimeSelecting, "Runtime controller is being selected")
  | some plan => checkRuntimeStatusFromPlan plan

theorem updateRuntimeStatusFromPlan_eq (now : Time) (workload : Workload)
    (plan : Option WorkloadPlan) :
    updateRuntimeStatusFromPlan now workload plan =
      setRuntimeReadyCondition now workload (runtimeReport plan).1 (runtimeReport plan).2.1
        (runtimeReport plan).2.2 := by
  cases plan <;> rfl

theorem computeFinalStatus_metadata (runtimeNow readyNow : Time) (workload : Workload)
    (plan : Option WorkloadPlan) :
    (computeFinalStatus runtimeNow readyNow workload plan).metadata = workload.metadata := by
  cases plan <;> rfl

/-- The Workload that a run sends to the status. -/
def reported (settings : Settings) (workload : Workload) (claims : List ResourceClaim)
    (plan : Option WorkloadPlan) : Workload :=
  computeFinalStatus (settings.clock 3) (settings.clock 4)
    (claimedContext settings workload claims).workload plan

/-- A status that already says of the claims and of the plan what a run reports. -/
structure UpToDate (status : WorkloadStatus) (claims : List ResourceClaim)
    (plan : Option WorkloadPlan) : Prop where
  summaries : status.claims = (aggregateStatus claims).claims
  inputs : Conditions.Reports status.conditions inputsValid
    (statusOf true) reasonSucceeded "Workload specification is valid"
  aggregated : Conditions.Reports status.conditions claimsReady
    (statusOf (aggregateStatus claims).ready) (aggregateStatus claims).reason
    (aggregateStatus claims).message
  runtime : Conditions.Reports status.conditions runtimeReady
    (statusOf (runtimeReport plan).1) (runtimeReport plan).2.1
    (runtimeReport plan).2.2
  ready : Conditions.Reports status.conditions Conditions.ready
    (computeReadyCondition status.conditions).1
    (computeReadyCondition status.conditions).2.1
    (computeReadyCondition status.conditions).2.2

section

variable {settings : Settings} {workload : Workload} {claims : List ResourceClaim}
  {plan : Option WorkloadPlan}

/-- A run reports what is up to date. -/
theorem upToDate_reported :
    UpToDate (reported settings workload claims plan).status claims plan := by
  unfold reported computeFinalStatus withReadyCondition
  rw [updateRuntimeStatusFromPlan_eq]
  refine ⟨rfl, ?_, ?_, ?_, ?_⟩
  · apply Conditions.Reports.setCondition (by decide)
    apply Conditions.Reports.setCondition (by decide)
    apply Conditions.Reports.setCondition (by decide)
    exact reports_setCondition ..
  · apply Conditions.Reports.setCondition (by decide)
    apply Conditions.Reports.setCondition (by decide)
    exact reports_setCondition ..
  · apply Conditions.Reports.setCondition (by decide)
    exact reports_setCondition ..
  · -- the Ready condition is no part of itself
    rw [computeReadyCondition_setCondition_ready]
    exact reports_setCondition ..

namespace UpToDate

variable (upToDate : UpToDate workload.status claims plan)
include upToDate

theorem claimedContext_workload :
    (claimedContext settings workload claims).workload = workload := by
  have inputs : validated settings workload = workload := by
    unfold validated setInputsValidCondition setWorkloadCondition
    rw [setCondition_of_reports _ upToDate.inputs]
  unfold claimedContext updateWorkloadStatusFromAggregation
  rw [inputs, setCondition_of_reports _ upToDate.aggregated, ← upToDate.summaries]

/-- Reporting it again changes nothing. -/
theorem reported_eq : reported settings workload claims plan = workload := by
  unfold reported computeFinalStatus withReadyCondition
  have runtime : updateRuntimeStatusFromPlan (settings.clock 3) workload plan = workload := by
    rw [updateRuntimeStatusFromPlan_eq]
    unfold setRuntimeReadyCondition setWorkloadCondition
    rw [setCondition_of_reports _ upToDate.runtime]
  rw [upToDate.claimedContext_workload, runtime]
  dsimp only
  rw [setCondition_of_reports _ upToDate.ready]

end UpToDate

end

/-! ### Claims and plans -/

/-- Every one of these resources has a claim with the spec that it asks for. -/
def ClaimsUpserted (workload : Workload) (entries : List (String × ResourceSpec)) (store : Store) :
    Prop :=
  ∀ entry ∈ entries, ∃ claim,
    store.find? .resourceClaim (claimKey workload entry.1) = some claim ∧
      resourceClaimSpecEqual claim.spec (desiredClaimSpec workload entry.1 entry.2) = true

/-- The only plan that is indexed for a Workload. -/
def indexedPlan (workload : Workload) (store : Store) : Option WorkloadPlan :=
  (onlyPlan workload (.ok ((store.table .workloadPlan).rows.filter
    ((ListSelector.matchingFields "workloadplan.workloadRef" (indexKey workload)).selects
      .workloadPlan)))).toOption

/-- The stored plan counts as equal to whatever would be emitted. -/
def PlanUpToDate (settings : Settings) (workload : Workload) (claims : List ResourceClaim)
    (store : Store) : Prop :=
  ∃ plan, store.find? .workloadPlan (planKey workload) = some plan ∧
    ∀ selectedBackend values, settings.selectBackend workload = .ok selectedBackend →
      workloadPlanSpecEqual plan.spec
        (desiredPlanSpec workload claims selectedBackend values) = true

/-- No plan can be emitted: no backend is selected, the name is empty, or the projection
of the outputs fails. -/
def Unplannable (settings : Settings) (workload : Workload) (claims : List ResourceClaim)
    (store : Store) : Prop :=
  ∀ selectedBackend, settings.selectBackend workload = .ok selectedBackend →
    workload.metadata.name = "" ∨
      ∀ outputs events,
        (buildResolvedOutputsMap claims .empty).Runs healthyServer store events
          (.returned outputs) store →
        ∀ values, projected settings.order settings.codec workload outputs ≠
          .ok values

section

variable {admits : ApiEvent → Prop} {state : Store} {settings : Settings}
  {workload : Workload} {claims : List ResourceClaim}

theorem upsertResourceClaim_still {key : String} {resource : ResourceSpec} {claim : ResourceClaim}
    (found : state.find? .resourceClaim (claimKey workload key) = some claim)
    (equal : resourceClaimSpecEqual claim.spec (desiredClaimSpec workload key resource) = true) :
    Still admits state (· = .ok ()) (upsertResourceClaim workload key resource) := by
  refine Still.call rfl (serve_get_some found) ?_
  simp only [done_bind, updateClaim, equal, if_true]
  exact .done rfl

/-- Claims that are upserted stay as they are. -/
theorem ensureClaimsFor_still {entries : List (String × ResourceSpec)}
    (upserted : ClaimsUpserted workload entries state) :
    Still admits state (· = .ok ()) (ensureClaimsFor workload entries) := by
  induction entries with
  | nil => exact .done rfl
  | cons entry rest ih =>
    obtain ⟨claim, found, equal⟩ := upserted entry (.head _)
    apply Still.bind
    refine (upsertResourceClaim_still found equal).mono ?_
    rintro _ rfl
    exact ih fun entry member => upserted entry (.tail _ member)

theorem getClaims_still : Still (ListsAs claims) state (· = .ok claims) (getClaims workload) := by
  refine Still.list fun listed permuted admitted => ?_
  obtain rfl := admitted listed rfl
  exact .done rfl

/-- Of several plans none is picked, in whatever order they come. -/
theorem onlyPlan_perm {plans others : List WorkloadPlan} (permuted : plans.Perm others) :
    (onlyPlan workload (.ok plans)).toOption = (onlyPlan workload (.ok others)).toOption := by
  match plans, others, permuted with
  | [], [], _ => rfl
  | [plan], [other], permuted => rw [List.singleton_perm_singleton.mp permuted]
  | _ :: _ :: _, _ :: _ :: _, _ => rfl
  | [], _ :: _, permuted => exact absurd permuted.length_eq (by simp)
  | [_], [], permuted => exact absurd permuted.length_eq (by simp)
  | [_], _ :: _ :: _, permuted => exact absurd permuted.length_eq (by simp)
  | _ :: _ :: _, [], permuted => exact absurd permuted.length_eq (by simp)
  | _ :: _ :: _, [_], permuted => exact absurd permuted.length_eq (by simp)

theorem getPlan_still :
    Still admits state (fun got => got.toOption = indexedPlan workload state) (getPlan workload) :=
  Still.list fun _ permuted _ => .done (onlyPlan_perm permuted)

/-- Outputs are collected by reading Secrets. -/
theorem buildResolvedOutputsMap_still :
    Still admits state
      (fun outputs => ∃ events, (buildResolvedOutputsMap claims .empty).Runs healthyServer
        state events (.returned outputs) state) (buildResolvedOutputsMap claims .empty) :=
  .of_reads (Reconcile.buildResolvedOutputsMap_makes (fun _ _ => ⟨rfl, rfl⟩) _ _)

variable {selectedBackend : SelectedBackend}

theorem emit_still {post : Except GoError Unit → Prop}
    {write : WorkloadPlanSpec → Client (Except GoError Unit)} (fails : ∀ fault, post (.error fault))
    (writes : ∀ values outputs events,
      (buildResolvedOutputsMap claims .empty).Runs healthyServer state events
        (.returned outputs) state →
      projected settings.order settings.codec workload outputs = .ok values →
      Still admits state post (write (desiredPlanSpec workload claims selectedBackend values))) :
    Still admits state post
      (upsertWorkloadPlan.emit settings.order settings.codec workload claims selectedBackend
        write) := by
  rw [Reconcile.emit_eq_projected]
  apply Still.bind
  refine buildResolvedOutputsMap_still.mono ?_
  rintro outputs ⟨events, run⟩
  split
  · exact .done (fails _)
  next values succeeds => exact writes values outputs events run succeeds

/-- A plan that counts as equal stays as it is. -/
theorem upsertWorkloadPlan_still {plan : WorkloadPlan}
    (found : state.find? .workloadPlan (planKey workload) = some plan)
    (equal : ∀ values, workloadPlanSpecEqual plan.spec
      (desiredPlanSpec workload claims selectedBackend values) = true) :
    Still admits state (fun _ => True)
      (upsertWorkloadPlan settings.order settings.codec workload claims selectedBackend) := by
  unfold upsertWorkloadPlan
  split
  · exact .done trivial
  next named =>
    rw [if_neg named]
    refine Still.call rfl (serve_get_some found) ?_
    simp only [done_bind]
    apply emit_still (fun _ => trivial)
    intro values _ _ _ _
    simp only [Reconcile.updatePlan, equal values, if_true]
    exact .done trivial

/-- A projection that fails leaves everything as it is. -/
theorem upsertWorkloadPlan_still_of_fails
    (fails : workload.metadata.name = "" ∨
      ∀ outputs events,
        (buildResolvedOutputsMap claims .empty).Runs healthyServer state events
          (.returned outputs) state →
        ∀ values, projected settings.order settings.codec workload outputs ≠ .ok values) :
    Still admits state (· ≠ .ok ())
      (upsertWorkloadPlan settings.order settings.codec workload claims selectedBackend) := by
  unfold upsertWorkloadPlan
  split
  · exact .done nofun
  next named =>
    have emits : ∀ write, Still admits state (· ≠ .ok ())
        (upsertWorkloadPlan.emit settings.order settings.codec workload claims
          selectedBackend write) := by
      intro write
      refine emit_still (fun _ => nofun) fun values outputs events run succeeds => ?_
      exact absurd succeeds ((fails.resolve_left named) _ _ run values)
    rw [if_neg named]
    cases found : state.find? .workloadPlan (planKey workload) with
    | none =>
      refine Still.call rfl (serve_get_none found) ?_
      exact emits _
    | some plan =>
      refine Still.call rfl (serve_get_some found) ?_
      simp only [done_bind]
      exact emits _

theorem ensurePlan_still {now : Time} {aggregation : ClaimAggregation}
    (upToDate : aggregation.ready = true → PlanUpToDate settings workload claims state) :
    Still admits state (fun returned => returned.2 = .ok () → returned.1 = workload)
      (ensurePlan settings now workload claims aggregation) := by
  unfold ensurePlan
  split
  next ready =>
    obtain ⟨plan, found, equal⟩ := upToDate ready
    split
    · exact .done nofun
    next selectedBackend selected =>
      apply Still.bind
      refine (upsertWorkloadPlan_still found fun values => equal _ values selected).mono ?_
      rintro (fault | _) _
      · dsimp only
        split
        · exact .done nofun
        · exact .done fun _ => rfl
      · exact .done fun _ => rfl
  · exact .done fun _ => rfl

theorem ensurePlan_still_of_unplannable {now : Time} {aggregation : ClaimAggregation}
    (ready : aggregation.ready = true) (unplannable : Unplannable settings workload claims state) :
    Still admits state (fun returned => returned.2 ≠ .ok ())
      (ensurePlan settings now workload claims aggregation) := by
  unfold ensurePlan
  rw [if_pos ready]
  split
  · exact .done nofun
  next selectedBackend selected =>
    apply Still.bind
    refine (upsertWorkloadPlan_still_of_fails (unplannable _ selected)).mono ?_
    rintro (fault | _) fails
    · dsimp only
      split
      · exact .done nofun
      · exact .done nofun
    · exact absurd rfl fails

end

/-! ### The pipeline -/

/-- A state in which the pipeline has nothing to do for a Workload with these claims. -/
structure Quiet (settings : Settings) (workload : Workload) (claims : List ResourceClaim)
    (store : Store) : Prop where
  stored : store.find? .workload workload.key = some workload
  live : workload.isBeingDeleted = false
  finalizer : hasFinalizer workload = true
  upserted : ClaimsUpserted workload workload.spec.resources.rows store
  settled :
    UpToDate workload.status claims (indexedPlan workload store) ∧
        ((aggregateStatus claims).ready = true →
          PlanUpToDate settings workload claims store) ∨
      (aggregateStatus claims).ready = true ∧
        Unplannable settings (claimedContext settings workload claims).workload claims store

section

variable {settings : Settings} {workload : Workload} {claims : List ResourceClaim} {state : Store}
  {admits : ApiEvent → Prop}

theorem executeClaimPhase_still
    (upserted : ClaimsUpserted workload workload.spec.resources.rows state) :
    Still (ListsAs claims) state
      (fun returned => returned.1 = claimedContext settings workload claims)
      (executeClaimPhase settings { workload := validated settings workload }) := by
  apply Still.bind
  have each : ClaimsUpserted (validated settings workload)
      (settings.order.range workload.spec.resources) state :=
    fun entry member => upserted entry ((settings.order.perm _).mem_iff.mp member)
  refine (ensureClaimsFor_still each).mono ?_
  rintro _ rfl
  apply Still.bind
  refine getClaims_still.mono ?_
  rintro _ rfl
  exact .done rfl

/-- The plan phase hands on the context with the plan that is indexed, or ends the
pipeline. -/
theorem executePlanPhase_still (upToDate : context.claimAgg.ready = true →
      PlanUpToDate settings context.workload context.claims state) :
    Still admits state
      (fun returned => returned.2.error = none → returned.2.skip = false →
        returned.1 = { context with plan := indexedPlan context.workload state })
      (executePlanPhase settings context) := by
  apply Still.bind
  refine (ensurePlan_still upToDate).mono ?_
  rintro ⟨planned, fault | _⟩ same
  · dsimp only
    split
    · exact .done nofun
    · exact .done nofun
  · obtain rfl := same rfl
    apply Still.bind
    refine getPlan_still.mono ?_
    intro got indexed
    refine .done fun _ _ => ?_
    rw [← indexed]

theorem executePlanPhase_still_of_unplannable (ready : context.claimAgg.ready = true)
    (unplannable : Unplannable settings context.workload context.claims state) :
    Still admits state (fun returned => returned.2.error = none → returned.2.skip = true)
      (executePlanPhase settings context) := by
  apply Still.bind
  refine (ensurePlan_still_of_unplannable ready unplannable).mono ?_
  rintro ⟨planned, fault | _⟩ fails
  · dsimp only
    split
    · exact .done fun _ => rfl
    · exact .done nofun
  · exact absurd rfl fails

/-- Sending the stored Workload to its status is no write. -/
theorem executeStatusPhase_still (stored : state.find? .workload workload.key = some workload)
    (same : computeFinalStatus (settings.clock 3) (settings.clock 4) context.workload
      context.plan = workload) :
    Still admits state (fun _ => True) (executeStatusPhase settings context) := by
  unfold executeStatusPhase
  rw [same]
  exact Still.call rfl (serve_updateStatus_self stored) (.done trivial)

/-- In a quiet state a run changes nothing, however it ends. -/
theorem executePipeline_still (quiet : Quiet settings workload claims state) :
    Still (ListsAs claims) state (fun _ => True) (executePipeline settings workload) := by
  have finalized : ensureFinalizer workload = .done (.ok workload) := if_pos quiet.finalizer
  unfold executePipeline
  rw [quiet.live, finalized]
  refine executeNormalPipeline_still quiet.live (.done fun _ _ => ?_)
  refine executeNormalPipeline_still quiet.live ?_
  refine (executeClaimPhase_still quiet.upserted).mono ?_
  rintro ⟨_, _⟩ rfl _ _
  refine executeNormalPipeline_still quiet.live ?_
  rcases quiet.settled with ⟨upToDate, planned⟩ | ⟨ready, unplannable⟩
  · have same : (claimedContext settings workload claims).workload = workload :=
      upToDate.claimedContext_workload
    have plans : (claimedContext settings workload claims).claimAgg.ready = true →
        PlanUpToDate settings (claimedContext settings workload claims).workload claims
          state := by
      rw [same]
      exact planned
    refine (executePlanPhase_still plans).mono ?_
    rintro ⟨_, _⟩ handedOn noError goesOn
    obtain rfl := handedOn noError goesOn
    refine executeNormalPipeline_still quiet.live ?_
    refine (executeStatusPhase_still quiet.stored ?_).mono fun _ _ _ _ => .done trivial
    exact upToDate.reported_eq
  · refine (executePlanPhase_still_of_unplannable ready unplannable).mono ?_
    intro returned skips noError goesOn
    rw [skips noError] at goesOn
    cases goesOn

end

end ScoreOrchestrator.Controller
