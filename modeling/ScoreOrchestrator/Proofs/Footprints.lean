/-
Module: Proofs.Footprints
Purpose: Every call that plan emission, the pipeline, the mirror, the registrar and
  the runtime can make, said once, for any property of calls.
-/
import ScoreOrchestrator.Api.ServerLaws
import ScoreOrchestrator.Controller.Registrar
import ScoreOrchestrator.Runtime.PlanController

namespace ScoreOrchestrator

open Foundation Program

variable {phases : List Phase} {context : PhaseContext} {workload : Workload} {plan : WorkloadPlan}

/-- A property of calls that holds of every call of an upsert of claims. -/
structure ClaimCalls (allowed : CallSet Call) : Prop where
  getClaim : ∀ key, allowed (.get .resourceClaim key)
  createClaim : ∀ workload key resource, allowed (.create .resourceClaim
    (Controller.newClaim workload key
      (Controller.desiredClaimSpec workload key resource)))
  updateClaim : ∀ (claim : ResourceClaim) workload key resource,
    allowed (.update .resourceClaim
      { claim with spec := Controller.desiredClaimSpec workload key resource })

/-- The same for the emission of a plan. -/
structure PlanCalls (allowed : CallSet Call) : Prop where
  gets : ∀ kind key, allowed (.get kind key)
  createPlan : ∀ plan, allowed (.create .workloadPlan plan)
  updatePlan : ∀ plan, allowed (.update .workloadPlan plan)

/-- The same for the phases that come before the status is written. -/
structure PhaseCalls (allowed : CallSet Call) : Prop where
  reads : ∀ ⦃answer : Type⦄ (request : Call answer), request.isRead →
    allowed request
  createClaim : ∀ workload key resource, allowed (.create .resourceClaim
    (Controller.newClaim workload key
      (Controller.desiredClaimSpec workload key resource)))
  updateClaim : ∀ (claim : ResourceClaim) workload key resource,
    allowed (.update .resourceClaim
      { claim with spec := Controller.desiredClaimSpec workload key resource })
  createPlan : ∀ plan, allowed (.create .workloadPlan plan)
  updatePlan : ∀ plan, allowed (.update .workloadPlan plan)

/-- The same for the deletion of a Workload. -/
structure DeletionCalls (allowed : CallSet Call) : Prop where
  reads : ∀ ⦃answer : Type⦄ (request : Call answer), request.isRead →
    allowed request
  detachClaim : ∀ claim, allowed (.update .resourceClaim claim)
  deleteClaim : ∀ key, allowed (.delete .resourceClaim key)
  updateWorkload : ∀ workload, allowed (.update .workload workload)

/-- The same for all phases.  A status they write is always a computed final
status. -/
structure NormalCalls (allowed : CallSet Call) :
    Prop extends PhaseCalls allowed where
  updateWorkloadStatus : ∀ runtimeNow readyNow workload plan,
    allowed (.updateStatus .workload
      (Controller.computeFinalStatus runtimeNow readyNow workload plan))

/-- The same for the whole pipeline. -/
structure PipelineCalls (allowed : CallSet Call) :
    Prop extends NormalCalls allowed, DeletionCalls allowed

variable {allowed : CallSet Call}

theorem PhaseCalls.claimCalls (calls : PhaseCalls allowed) : ClaimCalls allowed where
  getClaim _ := calls.reads _ rfl
  createClaim := calls.createClaim
  updateClaim := calls.updateClaim

theorem PhaseCalls.planCalls (calls : PhaseCalls allowed) : PlanCalls allowed where
  gets _ _ := calls.reads _ rfl
  createPlan := calls.createPlan
  updatePlan := calls.updatePlan

section

variable (quiet : ∀ ⦃answer : Type⦄ (request : Call answer),
  request.leavesStatus .workload = true → allowed request)

include quiet

/-- No phase before the last one touches the status of a Workload. -/
theorem PhaseCalls.of_leavesStatus : PhaseCalls allowed where
  reads _ request reads := quiet request (Call.leavesStatus_of_isRead reads _)
  createClaim _ _ _ := quiet _ rfl
  updateClaim _ _ _ _ := quiet _ rfl
  createPlan _ := quiet _ rfl
  updatePlan _ := quiet _ rfl

/-- Nor does the deletion of one. -/
theorem DeletionCalls.of_leavesStatus : DeletionCalls allowed where
  reads _ request reads := quiet request (Call.leavesStatus_of_isRead reads _)
  detachClaim _ := quiet _ rfl
  deleteClaim _ := quiet _ rfl
  updateWorkload _ := quiet _ rfl

theorem PipelineCalls.of_leavesStatus
    (send : ∀ runtimeNow readyNow workload plan, allowed (.updateStatus .workload
      (Controller.computeFinalStatus runtimeNow readyNow workload plan))) :
    PipelineCalls allowed where
  toPhaseCalls := .of_leavesStatus quiet
  detachClaim _ := quiet _ rfl
  deleteClaim _ := quiet _ rfl
  updateWorkload _ := quiet _ rfl
  updateWorkloadStatus := send

end

namespace Reconcile

section

variable (gets : ∀ kind key, allowed (.get kind key))

include gets

theorem addSecretOutputs_makes (claim : ResourceClaim) (outputs : GoMap String)
    (secretRef : Option LocalObjectReference) :
    (addSecretOutputs claim outputs secretRef).Makes allowed := by
  cases secretRef with
  | none => trivial
  | some secretRef =>
    refine ⟨gets _ _, fun reply => ?_⟩
    cases reply <;> trivial

theorem claimOutputs_makes (claim : ResourceClaim) (published : ResourceClaimOutputs) :
    (claimOutputs claim published).Makes allowed :=
  (addSecretOutputs_makes gets _ _ _).bind fun _ => trivial

theorem buildResolvedOutputsMap_makes (claims : List ResourceClaim) (outputs : AvailableOutputs) :
    (buildResolvedOutputsMap claims outputs).Makes allowed := by
  induction claims generalizing outputs with
  | nil => trivial
  | cons claim rest ih =>
    unfold buildResolvedOutputsMap
    split
    · split
      · trivial
      · exact (claimOutputs_makes gets _ _).bind fun _ => ih _
    · exact ih _

theorem resolveAllPlaceholders_makes (order : IterOrder) (codec : JsonCodec) (workload : Workload)
    (claims : List ResourceClaim) :
    (resolveAllPlaceholders order codec workload claims).Makes allowed := by
  apply (buildResolvedOutputsMap_makes gets claims .empty).bind
  intro outputs
  split
  · trivial
  · split <;> trivial

end

/-- Resolving only reads. -/
theorem resolveAllPlaceholders_reads (order : IterOrder) (codec : JsonCodec) (workload : Workload)
    (claims : List ResourceClaim) :
    (resolveAllPlaceholders order codec workload claims).Makes fun _ request =>
      request.isRead = true :=
  resolveAllPlaceholders_makes (fun _ _ => rfl) order codec workload claims

variable (calls : PlanCalls allowed)

include calls

theorem updatePlan_makes (plan : WorkloadPlan) (desiredSpec : WorkloadPlanSpec) (context : String) :
    (updatePlan plan desiredSpec context).Makes allowed := by
  unfold updatePlan
  split
  · trivial
  · refine ⟨calls.updatePlan _, fun reply => ?_⟩
    cases reply <;> trivial

theorem createPlan_makes (workload : Workload) (desiredSpec : WorkloadPlanSpec) :
    (createPlan workload desiredSpec).Makes allowed := by
  refine ⟨calls.createPlan _, fun reply => ?_⟩
  cases reply with
  | ok _ => trivial
  | error fault =>
    simp only [done_bind]
    split
    · refine ⟨calls.gets _ _, fun existing => ?_⟩
      cases existing with
      | error _ => trivial
      | ok existingPlan => exact updatePlan_makes calls _ _ _
    · trivial

theorem upsertWorkloadPlan_makes (order : IterOrder) (codec : JsonCodec) (workload : Workload)
    (claims : List ResourceClaim) (selectedBackend : SelectedBackend) :
    (upsertWorkloadPlan order codec workload claims selectedBackend).Makes
      allowed := by
  have emitted : ∀ write : WorkloadPlanSpec → Client (Except GoError Unit),
      (∀ desiredSpec, (write desiredSpec).Makes allowed) →
      (upsertWorkloadPlan.emit order codec workload claims selectedBackend
        write).Makes allowed := by
    intro write writes
    apply (resolveAllPlaceholders_makes calls.gets _ _ _ _).bind
    intro resolved
    cases resolved with
    | error _ => trivial
    | ok resolvedValues =>
      dsimp only
      split
      · trivial
      · exact writes _
  unfold upsertWorkloadPlan
  split
  · trivial
  next named =>
    rw [if_neg named]
    refine ⟨calls.gets _ _, fun reply => ?_⟩
    cases reply with
    | ok plan => exact emitted _ fun desiredSpec => updatePlan_makes calls plan desiredSpec _
    | error fault =>
      simp only [done_bind]
      split
      · exact emitted _ (createPlan_makes calls workload)
      · trivial

end Reconcile

namespace Controller

/-! ### Managers -/

section

variable (calls : ClaimCalls allowed)

include calls

theorem upsertResourceClaim_makes (workload : Workload) (key : String) (resource : ResourceSpec) :
    (upsertResourceClaim workload key resource).Makes allowed := by
  refine ⟨calls.getClaim _, fun reply => ?_⟩
  simp only [done_bind]
  cases reply with
  | ok claim =>
    simp only [updateClaim]
    split
    · trivial
    · refine ⟨calls.updateClaim _ _ _ _, fun updated => ?_⟩
      cases updated <;> trivial
  | error fault =>
    dsimp only
    split
    · refine ⟨calls.createClaim _ _ _, fun created => ?_⟩
      cases created <;> trivial
    · trivial

theorem ensureClaims_makes (order : IterOrder) (workload : Workload) :
    (ensureClaims order workload).Makes allowed := by
  unfold ensureClaims
  induction order.range workload.spec.resources with
  | nil => trivial
  | cons entry rest ih =>
    apply (upsertResourceClaim_makes calls workload entry.1 entry.2).bind
    intro upserted
    cases upserted with
    | ok _ => exact ih
    | error _ => trivial

end

theorem getClaims_makes
    (reads : ∀ ⦃answer : Type⦄ (request : Call answer), request.isRead → allowed request)
    (workload : Workload) : (getClaims workload).Makes allowed := by
  refine ⟨reads _ rfl, fun reply => ?_⟩
  simp only [done_bind]
  cases reply with
  | ok claims => trivial
  | error fault =>
    dsimp only
    split
    · exact ⟨reads _ rfl, fun _ => trivial⟩
    · trivial

theorem getPlan_makes
    (reads : ∀ ⦃answer : Type⦄ (request : Call answer), request.isRead → allowed request)
    (workload : Workload) : (getPlan workload).Makes allowed := by
  refine ⟨reads _ rfl, fun reply => ?_⟩
  simp only [done_bind]
  cases reply with
  | ok plans => trivial
  | error fault =>
    dsimp only
    split
    · exact ⟨reads _ rfl, fun _ => trivial⟩
    · trivial

theorem executeClaimPhase_makes (claims : ClaimCalls allowed)
    (reads : ∀ ⦃answer : Type⦄ (request : Call answer), request.isRead → allowed request)
    (settings : Settings) (context : PhaseContext) :
    (executeClaimPhase settings context).Makes allowed := by
  apply (ensureClaims_makes claims _ _).bind
  intro ensured
  cases ensured with
  | error _ => trivial
  | ok _ =>
    apply (getClaims_makes reads _).bind
    intro listed
    cases listed <;> trivial

section

variable (calls : PlanCalls allowed)

include calls

theorem ensurePlan_makes (settings : Settings) (now : Time) (workload : Workload)
    (claims : List ResourceClaim) (aggregation : ClaimAggregation) :
    (ensurePlan settings now workload claims aggregation).Makes allowed := by
  unfold ensurePlan
  split
  · split
    · trivial
    · apply (Reconcile.upsertWorkloadPlan_makes calls _ _ _ _ _).bind
      intro upserted
      cases upserted with
      | ok _ => trivial
      | error fault =>
        dsimp only
        split <;> trivial
  · trivial

end

/-! ### Phases -/

theorem executePlanPhase_makes (calls : PhaseCalls allowed) (settings : Settings)
    (context : PhaseContext) : (executePlanPhase settings context).Makes allowed := by
  apply (ensurePlan_makes calls.planCalls _ _ _ _ _).bind
  rintro ⟨workload, ensured⟩
  cases ensured with
  | error fault =>
    dsimp only
    split <;> trivial
  | ok _ => exact (getPlan_makes calls.reads _).bind fun _ => trivial

/-- A list of phases makes the calls of its phases. -/
theorem runPhases_makes (each : ∀ phase ∈ phases, ∀ context, (phase.execute context).Makes allowed)
    (context : PhaseContext) : (runPhases phases context).Makes allowed := by
  induction phases generalizing context with
  | nil => trivial
  | cons phase rest ih =>
    have remaining := ih fun other member =>
      each other (List.mem_cons_of_mem _ member)
    unfold runPhases
    split
    · exact remaining context
    · apply (each phase List.mem_cons_self context).bind
      rintro ⟨next, result⟩
      dsimp only
      split
      · trivial
      · split
        · trivial
        · split
          · trivial
          · exact remaining next

/-- The proof rule for a list of phases: skip the first one, or execute it and go
on where it ends neither with an error nor with a requeue or a skip. -/
theorem executeNormalPipeline_cons_safe {State : Type} {contract : Contract Call GoError State}
    {phase : Phase} {rest : List Phase} {history : List (EventOn State)} {state : State}
    (skipped : phase.shouldSkip context = true →
      Safe contract (fun _ _ _ => True) (executeNormalPipeline rest context) history state)
    (executed : phase.shouldSkip context = false →
      Safe contract
        (fun returned history state => returned.2.error = none →
          returned.2.skip = false →
          Safe contract (fun _ _ _ => True)
            (executeNormalPipeline rest returned.1) history state)
        (phase.execute context) history state) :
    Safe contract (fun _ _ _ => True)
      (executeNormalPipeline (phase :: rest) context) history state := by
  unfold executeNormalPipeline
  split
  next skips => exact skipped skips
  next runs =>
    apply Safe.bind
    refine (executed (Bool.eq_false_iff.mpr runs)).mono ?_
    rintro ⟨next, result⟩ history state onward
    dsimp only
    split
    · exact fun _ _ => trivial
    next noError =>
      split
      · exact fun _ _ => trivial
      · split
        · exact fun _ _ => trivial
        next goesOn => exact onward noError (Bool.eq_false_iff.mpr goesOn)

/-- A list whose every phase is skipped does nothing. -/
theorem executeNormalPipeline_skipped (all : ∀ phase ∈ phases, phase.shouldSkip context = true) :
    executeNormalPipeline phases context = .done (.ok {}) := by
  induction phases with
  | nil => rfl
  | cons phase rest ih =>
    rw [executeNormalPipeline, if_pos (all phase (.head _))]
    exact ih fun other member => all other (.tail _ member)

/-- The calls of a list of phases may depend on what each phase hands on. -/
theorem executeNormalPipeline_makes_of {holds : PhaseContext → Prop}
    (each : ∀ phase ∈ phases, ∀ context, holds context →
      (phase.execute context).Makes allowed ∧
        (phase.execute context).Yields fun returned => holds returned.1) (start : holds context) :
    (executeNormalPipeline phases context).Makes allowed := by
  induction phases generalizing context with
  | nil => trivial
  | cons phase rest ih =>
    have remaining : ∀ {context}, holds context →
        (executeNormalPipeline rest context).Makes allowed :=
      ih fun other member => each other (.tail _ member)
    unfold executeNormalPipeline
    split
    · exact remaining start
    · obtain ⟨makes, yields⟩ := each phase (.head _) context start
      apply makes.bind_of_yields yields
      rintro ⟨next, result⟩ carried
      dsimp only
      split
      · trivial
      · split
        · trivial
        · split
          · trivial
          · exact remaining carried

theorem executeNormalPipeline_makes
    (each : ∀ phase ∈ phases, ∀ context, (phase.execute context).Makes allowed)
    (context : PhaseContext) : (executeNormalPipeline phases context).Makes allowed := by
  have carrying : ∀ phase ∈ phases, ∀ context : PhaseContext, True →
      (phase.execute context).Makes allowed ∧
        (phase.execute context).Yields fun _ => True :=
    fun phase member context _ => ⟨each phase member context, Program.yields_true _⟩
  exact executeNormalPipeline_makes_of carrying trivial

/-! ### Deletion -/

theorem processDeprovisionPolicy_makes {claim : ResourceClaim}
    (detach : ∀ sent : ResourceClaim, sent.key = claim.key → allowed (.update .resourceClaim sent))
    (delete : allowed (.delete .resourceClaim claim.key)) :
    (processDeprovisionPolicy workload claim).Makes allowed := by
  have deleted : (deleteResourceClaim claim).Makes allowed := by
    unfold deleteResourceClaim
    split
    · trivial
    · exact ⟨delete, fun _ => trivial⟩
  have released : (removeOwnerReference workload claim).Makes allowed :=
    ⟨detach _ rfl, fun _ => trivial⟩
  unfold processDeprovisionPolicy
  split
  · exact deleted
  · exact released
  · exact released
  · exact deleted

theorem processClaims_makes {claims : List ResourceClaim}
    (each : ∀ claim ∈ claims, (processDeprovisionPolicy workload claim).Makes allowed) :
    (processClaims workload claims).Makes allowed := by
  induction claims with
  | nil => trivial
  | cons claim rest ih =>
    apply (each claim (.head _)).bind
    intro result
    cases result with
    | ok _ => exact ih fun claim member => each claim (.tail _ member)
    | error _ => trivial

section

variable (calls : DeletionCalls allowed)

include calls

theorem finishDeletion_makes (settings : Settings) (workload : Workload) :
    (finishDeletion settings workload).Makes allowed := by
  have removed : (removeFinalizer workload).Makes allowed := by
    unfold removeFinalizer
    split
    · exact ⟨calls.updateWorkload _, fun _ => trivial⟩
    · trivial
  apply (getClaims_makes calls.reads workload).bind
  intro listed
  cases listed with
  | error _ => trivial
  | ok remainingClaims =>
    dsimp only
    split
    · trivial
    · apply removed.bind
      intro result
      cases result <;> trivial

theorem executeDeletionPhase_makes (settings : Settings) (workload : Workload) :
    (executeDeletionPhase settings workload).Makes allowed := by
  unfold executeDeletionPhase
  split
  · apply (getClaims_makes calls.reads workload).bind
    intro listed
    cases listed with
    | error _ => trivial
    | ok claims =>
      have each : ∀ claim ∈ claims,
          (processDeprovisionPolicy workload claim).Makes allowed := fun _ _ =>
        processDeprovisionPolicy_makes (fun _ _ => calls.detachClaim _) (calls.deleteClaim _)
      apply (processClaims_makes each).bind
      intro processed
      cases processed with
      | error _ => trivial
      | ok _ => exact finishDeletion_makes calls settings workload
  · trivial

theorem executeDeletionPipeline_makes (settings : Settings) (workload : Workload) :
    (executeDeletionPipeline settings workload).Makes allowed := by
  apply (executeDeletionPhase_makes calls settings workload).bind
  intro result
  split
  · trivial
  · split <;> trivial

end

/-! ### Pipeline -/

section

variable (calls : NormalCalls allowed)

include calls

theorem executeStatusPhase_makes (settings : Settings) (context : PhaseContext) :
    (executeStatusPhase settings context).Makes allowed := by
  refine ⟨calls.updateWorkloadStatus _ _ _ _, fun updated => ?_⟩
  cases updated with
  | ok _ => trivial
  | error fault =>
    simp only [done_bind, pure_eq]
    split <;> trivial

theorem normalPhases_makes (settings : Settings) :
    ∀ phase ∈ normalPhases settings, ∀ context, (phase.execute context).Makes allowed := by
  intro phase member context
  simp only [normalPhases, List.mem_cons, List.not_mem_nil, or_false] at member
  rcases member with rfl | rfl | rfl | rfl
  · trivial
  · exact executeClaimPhase_makes calls.claimCalls calls.reads settings context
  · exact executePlanPhase_makes calls.toPhaseCalls settings context
  · exact executeStatusPhase_makes calls settings context

end

theorem ensureFinalizer_makes (update : ∀ sent, allowed (.update .workload sent))
    (workload : Workload) : (ensureFinalizer workload).Makes allowed := by
  unfold ensureFinalizer
  split
  · trivial
  · exact ⟨update _, fun _ => trivial⟩

variable (calls : PipelineCalls allowed)

include calls

theorem executePipeline_makes (settings : Settings) (workload : Workload) :
    (executePipeline settings workload).Makes allowed := by
  unfold executePipeline
  split
  · exact executeDeletionPipeline_makes calls.toDeletionCalls settings workload
  · apply (ensureFinalizer_makes calls.updateWorkload workload).bind
    intro result
    cases result with
    | error _ => trivial
    | ok workload =>
      exact executeNormalPipeline_makes (normalPhases_makes calls.toNormalCalls settings) _

/-- Everything a reconcile of a Workload can call. -/
theorem reconcileWorkload_makes (settings : Settings) (key : NamespacedName) :
    (reconcileWorkload settings key).Makes allowed := by
  refine ⟨calls.reads _ rfl, fun reply => ?_⟩
  simp only [done_bind]
  cases reply with
  | ok workload => exact executePipeline_makes calls settings workload
  | error fault =>
    dsimp only
    split <;> trivial

omit calls

theorem applyExposure_makes
    (reads : ∀ ⦃answer : Type⦄ (request : Call answer), request.isRead → allowed request)
    {desired : WorkloadExposure} (create : allowed (.create .workloadExposure desired))
    (patch : ∀ exposure : WorkloadExposure,
      allowed (.patch .workloadExposure exposure { exposure with spec := desired.spec })) :
    (applyExposure desired).Makes allowed := by
  refine ⟨reads _ rfl, fun gotExposure => ?_⟩
  simp only [done_bind]
  cases gotExposure with
  | error fault =>
    dsimp only
    split
    · refine ⟨create, fun created => ?_⟩
      cases created <;> trivial
    · trivial
  | ok exposure =>
    dsimp only
    split
    · refine ⟨patch exposure, fun patched => ?_⟩
      cases patched <;> trivial
    · trivial

/-- Everything a registrar run can call. -/
theorem registerExposure_makes
    (reads : ∀ ⦃answer : Type⦄ (request : Call answer), request.isRead → allowed request)
    (runtimeClass : String)
    (create : ∀ workload, allowed (.create .workloadExposure
      (desiredExposure runtimeClass workload)))
    (patch : ∀ (exposure : WorkloadExposure) workload,
      allowed (.patch .workloadExposure exposure
        { exposure with spec := (desiredExposure runtimeClass workload).spec }))
    (key : NamespacedName) : (registerExposure runtimeClass key).Makes allowed := by
  refine ⟨reads _ rfl, fun gotWorkload => ?_⟩
  simp only [done_bind]
  cases gotWorkload with
  | error fault => trivial
  | ok workload =>
    dsimp only
    split
    · trivial
    · exact applyExposure_makes reads (create workload) fun exposure =>
        patch exposure workload

end Controller

namespace Runtime

theorem createOrPatch_makes {kind : Kind} {noun : String} {specEqual : kind.Spec → kind.Spec → Bool}
    {adopt : kind.Spec → kind.Spec → kind.Spec} {desired : kind.Object}
    (get : allowed (.get kind desired.key)) (create : allowed (.create kind desired))
    (patch : ∀ before, allowed (.patch kind before
      (mergeInto before desired (adopt before.spec desired.spec)))) :
    (createOrPatch kind noun specEqual adopt desired).Makes allowed := by
  refine ⟨get, fun reply => ?_⟩
  simp only [done_bind]
  cases reply with
  | ok before =>
    dsimp only
    split
    · trivial
    · refine ⟨patch before, fun patched => ?_⟩
      cases patched <;> trivial
  | error fault =>
    dsimp only
    split
    · refine ⟨create, fun created => ?_⟩
      cases created <;> trivial
    · trivial

/-- The Deployment that a plan and a Workload ask for. -/
def desiredDeployment (settings : RuntimeSettings) (plan : WorkloadPlan) (workload : Workload) :
    Except GoError Deployment := do
  setControllerReference plan (← buildDeployment settings plan workload)

theorem reconcileDeployment_makes {settings : RuntimeSettings}
    (get : ∀ key, allowed (.get .deployment key)) (create : ∀ deployment,
      desiredDeployment settings plan workload = .ok deployment →
        allowed (.create .deployment deployment)) (patch : ∀ deployment before,
      desiredDeployment settings plan workload = .ok deployment →
        allowed (.patch .deployment before (mergeInto before deployment deployment.spec))) :
    (reconcileDeployment settings plan workload).Makes allowed := by
  unfold reconcileDeployment
  split
  · trivial
  next built wasBuilt =>
    split
    · trivial
    next deployment owned =>
      have desired : desiredDeployment settings plan workload = .ok deployment := by
        simp only [desiredDeployment, wasBuilt]
        exact owned
      exact createOrPatch_makes (get _) (create deployment desired)
        fun before => patch deployment before desired

theorem reconcileService_makes (get : ∀ key, allowed (.get .service key))
    (create : ∀ service, allowed (.create .service service))
    (patch : ∀ before modified, allowed (.patch .service before modified)) :
    (reconcileService plan workload).Makes allowed := by
  unfold reconcileService
  split
  · trivial
  · split
    · trivial
    · split
      · trivial
      · exact createOrPatch_makes (get _) (create _) fun before => patch before _

/-- A property of calls that holds of every call the runtime makes once it has
read a plan and a Workload. -/
structure RuntimeCalls (settings : RuntimeSettings) (plan : WorkloadPlan)
    (workload : Workload) (allowed : CallSet Call) :
    Prop where
  reads : ∀ ⦃answer : Type⦄ (request : Call answer), request.isRead →
    allowed request
  createDeployment : ∀ deployment,
    desiredDeployment settings plan workload = .ok deployment →
      allowed (.create .deployment deployment)
  patchDeployment : ∀ deployment before,
    desiredDeployment settings plan workload = .ok deployment →
      allowed (.patch .deployment before (mergeInto before deployment deployment.spec))
  createService : ∀ service, allowed (.create .service service)
  patchService : ∀ before modified, allowed (.patch .service before modified)
  writeStatus : ∀ status, allowed (.updateStatus .workloadPlan { plan with status })

theorem updateWorkloadPlanStatus_makes (get : ∀ key, allowed (.get .deployment key))
    (write : ∀ status, allowed (.updateStatus .workloadPlan { plan with status })) :
    (updateWorkloadPlanStatus plan).Makes allowed := by
  have written : ∀ status, (writePlanStatus plan status).Makes allowed := by
    intro status
    refine ⟨write status, fun reply => ?_⟩
    cases reply <;> trivial
  refine ⟨get _, fun reply => ?_⟩
  simp only [done_bind]
  cases reply with
  | ok deployment => exact written _
  | error fault =>
    dsimp only
    split
    · exact written _
    · trivial

theorem applyPlan_makes {settings : RuntimeSettings}
    (calls : RuntimeCalls settings plan workload allowed) :
    (applyPlan settings plan workload).Makes allowed := by
  have gets : ∀ kind key, allowed (.get kind key) := fun _ _ => calls.reads _ rfl
  apply (reconcileDeployment_makes (gets _) calls.createDeployment
    calls.patchDeployment).bind
  intro deployed
  cases deployed with
  | error fault => trivial
  | ok _ =>
    apply (reconcileService_makes (gets _) calls.createService
      calls.patchService).bind
    intro exposed
    cases exposed with
    | error fault => trivial
    | ok _ =>
      apply (updateWorkloadPlanStatus_makes (gets _) calls.writeStatus).bind
      intro updated
      cases updated <;> trivial

end Runtime

end ScoreOrchestrator
