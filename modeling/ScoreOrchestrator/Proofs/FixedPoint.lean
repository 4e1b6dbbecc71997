/-
Module: Proofs.FixedPoint
Purpose: The run of the pipeline after one that has succeeded: it changes nothing exactly if
  the claims that are listed again have the same summaries in the same order.
-/
import ScoreOrchestrator.Proofs.ClaimAggregation
import ScoreOrchestrator.Proofs.ClaimCoverage
import ScoreOrchestrator.Proofs.QuietDeletion
import ScoreOrchestrator.Proofs.RuntimeAgreement

namespace ScoreOrchestrator.Controller

open Foundation Program
open Reconcile (SelectedBackend buildResolvedOutputsMap createPlan desiredPlanSpec planKey
  projected updatePlan upsertWorkloadPlan workloadPlanSpecEqual)

variable {fault : GoError} {current : Workload} {workload : Workload} {others : List ResourceClaim}
  {status : WorkloadStatus} {result : ReconcileResult} {settings : Settings}

/-! ### Emissions that fail -/

section

variable {settings : Settings} {workload : Workload} {claims : List ResourceClaim}
  {selectedBackend : SelectedBackend} {desiredSpec : WorkloadPlanSpec} {before after : Store}
  {events : List ApiEvent} {returned : Except GoError Unit}

/-- A server that carries out its calls creates a plan that is not there. -/
theorem createPlan_succeeds (absent : before.find? .workloadPlan (planKey workload) = none)
    (run : (createPlan workload desiredSpec).Runs healthyServer before events
      (.returned returned) after) : returned = .ok () := by
  obtain ⟨reply, _, _, rfl, served, rest⟩ := run.of_call
  have sent : before.find? .workloadPlan (Reconcile.newPlan workload desiredSpec).key =
      none := absent
  have created : serve (.create .workloadPlan (Reconcile.newPlan workload desiredSpec))
      before = (reply, _) := served
  simp only [serve, sent] at created
  cases created
  cases rest
  rfl

/-- It updates a plan that is there as it was read. -/
theorem updatePlan_succeeds {plan : WorkloadPlan} {context : String}
    (found : before.find? .workloadPlan plan.key = some plan)
    (run : (updatePlan plan desiredSpec context).Runs healthyServer before events
      (.returned returned) after) : returned = .ok () := by
  unfold updatePlan at run
  split at run
  · cases run
    rfl
  · obtain ⟨reply, _, _, rfl, served, rest⟩ := run.of_call
    obtain ⟨updated, rfl⟩ := healthyServer_update served found rfl
    cases rest
    rfl

/-- An emission fails only because the projection of the outputs does. -/
theorem emit_fails {write : WorkloadPlanSpec → Client (Except GoError Unit)}
    (run : (upsertWorkloadPlan.emit settings.order settings.codec workload claims selectedBackend
        write).Runs healthyServer before events (.returned (.error fault)) after)
    (succeeds : ∀ desiredSpec late returned final,
      (write desiredSpec).Runs healthyServer before late (.returned returned) final →
        returned = .ok ()) :
    after = before ∧
      ∀ outputs others,
        (buildResolvedOutputsMap claims .empty).Runs healthyServer before others
          (.returned outputs) before →
        ∀ values, projected settings.order settings.codec workload outputs ≠
          .ok values := by
  rw [Reconcile.emit_eq_projected] at run
  obtain ⟨outputs, early, late, middle, _, head, tail⟩ := run.exists_of_bind
  obtain rfl : middle = before :=
    head.of_makes (fun before after => after = before) (fun _ => rfl)
      (fun first second => second.trans first)
      (fun _ _ reads _ _ _ served =>
        apiServer_of_isRead reads (apiServer_of_healthyServer served))
      (Reconcile.buildResolvedOutputsMap_makes (fun _ _ => rfl) _ _)
  cases failed : projected settings.order settings.codec workload outputs with
  | ok values =>
    rw [failed] at tail
    cases succeeds _ _ _ _ tail
  | error fault =>
    rw [failed] at tail
    cases tail
    refine ⟨rfl, fun outputs others again values => ?_⟩
    obtain ⟨rfl, _⟩ := head.returned_unique again
    rw [failed]
    exact nofun

/-- An upsert that fails on a server that carries out its calls changes nothing, and has
no name or no projection to work with. -/
theorem upsertWorkloadPlan_fails (run : (upsertWorkloadPlan settings.order settings.codec workload
      claims selectedBackend).Runs healthyServer before events (.returned (.error fault)) after) :
    after = before ∧
      (workload.metadata.name = "" ∨
        ∀ outputs others,
          (buildResolvedOutputsMap claims .empty).Runs healthyServer before others
            (.returned outputs) before →
          ∀ values, projected settings.order settings.codec workload outputs ≠
            .ok values) := by
  unfold upsertWorkloadPlan at run
  split at run
  next unnamed =>
    cases run
    exact ⟨rfl, .inl unnamed⟩
  next named =>
    rw [if_neg named] at run
    obtain ⟨reply, _, _, rfl, served, rest⟩ := run.of_call
    simp only [done_bind] at rest
    cases found : before.find? .workloadPlan (planKey workload) with
    | none =>
      have absent : (Except.error _, before) = (reply, _) :=
        (serve_get_none found).symm.trans served
      cases absent
      have missing : (GoError.objectNotFound .workloadPlan
        (planKey workload)).isNotFound = true := rfl
      dsimp only at rest
      rw [if_pos missing] at rest
      obtain ⟨same, fails⟩ := emit_fails rest fun _ _ _ _ => createPlan_succeeds found
      exact ⟨same, .inr fails⟩
    | some plan =>
      have read : (Except.ok plan, before) = (reply, _) :=
        (serve_get_some found).symm.trans served
      cases read
      have named : plan.key = planKey workload := Store.key_of_find? found
      rw [← named] at found
      obtain ⟨same, fails⟩ := emit_fails rest fun _ _ _ _ => updatePlan_succeeds found
      exact ⟨same, .inr fails⟩

theorem ensurePlan_fails {now : Time} {planned : Workload} {aggregation : ClaimAggregation}
    (run : (ensurePlan settings now workload claims aggregation).Runs healthyServer
      before events (.returned (planned, .error fault)) after) :
    after = before ∧ aggregation.ready = true ∧ Unplannable settings workload claims before := by
  unfold ensurePlan at run
  split at run
  next ready =>
    split at run
    next selecting =>
      cases run
      refine ⟨rfl, ready, fun selectedBackend selected => ?_⟩
      rw [selecting] at selected
      cases selected
    next chosen selecting =>
      obtain ⟨upserted, early, late, middle, _, head, tail⟩ := run.exists_of_bind
      cases upserted with
      | ok _ => cases tail
      | error fault =>
        obtain ⟨rfl, fails⟩ := upsertWorkloadPlan_fails head
        have same : after = middle := by
          dsimp only at tail
          split at tail
          · cases tail
            rfl
          · cases tail
            rfl
        refine ⟨same, ready, fun selectedBackend selected => ?_⟩
        rw [selecting] at selected
        cases selected
        exact fails
  · cases run

end

/-! ### What a run that succeeds leaves behind -/

/-- The later run selects what the earlier one did, for Workloads that agree in what the
selection looks at. -/
def SelectsAlike (settings later : Settings) : Prop :=
  ∀ first second : Workload, first.metadata.labels = second.metadata.labels →
    first.metadata.annotations = second.metadata.annotations → first.spec = second.spec →
    later.selectBackend second = settings.selectBackend first

theorem UpsertedTo.specEqual {key : String} {resource : ResourceSpec} {old : Option ResourceClaim}
    {claim : ResourceClaim} (upserted : UpsertedTo workload key resource old claim) :
    resourceClaimSpecEqual claim.spec (desiredClaimSpec workload key resource) = true := by
  cases upserted with
  | kept equal => exact equal
  | updated => exact resourceClaimSpecEqual_self _
  | created => exact resourceClaimSpecEqual_self _

section

variable {settings later : Settings} {workload : Workload} {claims : List ResourceClaim}
  {before after : Store} {events : List ApiEvent}

theorem claimsUpserted_of_ensureClaims {order : IterOrder}
    (run : (ensureClaims order workload).Runs apiServer before events (.returned (.ok ())) after) :
    ClaimsUpserted workload workload.spec.resources.rows after := by
  have upserts := ensureClaimsFor_upsertedTo (order.nodup_range workload.spec.resources) run
  intro entry member
  have ranged : entry ∈ order.range workload.spec.resources := (order.perm _).mem_iff.mpr member
  obtain ⟨claim, found, upserted⟩ := upserts entry ranged
  exact ⟨claim, found, upserted.specEqual⟩

/-- The comparison of plans does not look at the resolved values. -/
theorem exists_equal_of_emitted {selectedBackend : SelectedBackend} {values : RawExtension}
    (emitted : Reconcile.Emitted (planKey workload)
      (desiredPlanSpec workload claims selectedBackend values) before after) :
    ∃ plan, after.find? .workloadPlan (planKey workload) = some plan ∧
      ∀ others, workloadPlanSpecEqual plan.spec
        (desiredPlanSpec workload claims selectedBackend others) = true := by
  cases emitted with
  | kept plan found equal unchanged =>
    subst unchanged
    exact ⟨plan, found, fun _ => equal⟩
  | written plan _ found spec =>
    refine ⟨plan, found, fun others => ?_⟩
    rw [spec]
    simp [workloadPlanSpecEqual, desiredPlanSpec]

/-- What could not be planned cannot be planned by the later run either. -/
theorem Unplannable.of_alike {second : Workload}
    (fails : Unplannable settings workload claims before) (alike : SelectsAlike settings later)
    (codec : later.codec = settings.codec) (name : second.metadata.name = workload.metadata.name)
    (labels : workload.metadata.labels = second.metadata.labels)
    (annotations : workload.metadata.annotations = second.metadata.annotations)
    (spec : workload.spec = second.spec) : Unplannable later second claims before := by
  intro selectedBackend selected
  rw [alike workload second labels annotations spec] at selected
  rcases fails selectedBackend selected with unnamed | unprojected
  · exact .inl (name.trans unnamed)
  · refine .inr fun outputs others run values succeeds => ?_
    apply unprojected outputs others run values
    rw [Reconcile.projected_congr _ _ spec, ← codec]
    exact Reconcile.projected_order _ succeeds

/-- The status that the server stores is the one that the run computed. -/
theorem executeStatusPhase_stores {context next : PhaseContext} {result : PhaseResult}
    {stored : Workload}
    (run : (executeStatusPhase settings context).Runs shufflingServer before events
      (.returned (next, result)) after)
    (found : before.find? .workload context.workload.key = some stored)
    (version : context.workload.metadata.resourceVersion = stored.metadata.resourceVersion)
    (finds : after.find? .workload context.workload.key = some current) :
    (∃ version, current = Store.stamp version (stored.statusUpdatedBy
      (computeFinalStatus (settings.clock 3) (settings.clock 4) context.workload context.plan))) ∧
      ∀ kind, kind ≠ .workload → after.table kind = before.table kind := by
  have metadata := computeFinalStatus_metadata (settings.clock 3) (settings.clock 4)
    context.workload context.plan
  have keys : (computeFinalStatus (settings.clock 3) (settings.clock 4) context.workload
      context.plan).key = context.workload.key := by
    unfold Resource.key
    rw [metadata]
  rw [← keys] at found finds
  rw [← metadata] at version
  obtain ⟨reply, middle, _, rfl, served, rest⟩ := run.of_call
  have healthy := healthyServer_of_shufflingServer rfl served
  obtain ⟨updated, rfl⟩ := healthyServer_updateStatus healthy found version
  cases rest
  have direct := apiServer_of_healthyServer healthy
  refine ⟨apiServer_updateStatus_finds direct found finds, fun kind other => ?_⟩
  exact apiServer_table_of_leaves (by exact .inr other) direct

theorem getPlan_indexed {got : Except GoError WorkloadPlan}
    (run : (getPlan workload).Runs shufflingServer before events (.returned got) after) :
    got.toOption = indexedPlan workload before ∧ after = before := by
  obtain ⟨reply, _, _, rfl, served, rest⟩ := run.of_call
  obtain ⟨rfl, plans, rfl, permuted⟩ := shufflingServer_list served
  cases rest
  exact ⟨onlyPlan_perm permuted, rfl⟩

end

section

variable {settings later : Settings} {workload ensured : Workload}
  {claims : List ResourceClaim} {start middle after : Store}
  {events : List ApiEvent}

/-- A call that neither lists claims nor sends a status of a Workload. -/
def Aside {answer : Type} (request : Call answer) : Prop :=
  (∀ reply, request.listed .resourceClaim reply = none) ∧
    request.sentStatus .workload = none

/-- Some call sends a status of a Workload. -/
def Reports (events : List ApiEvent) : Prop :=
  ∃ event ∈ events, (event.request.sentStatus .workload).isSome

/-- At its plan phase a run has the finalizer stored, the claims upserted and listed, once
and in some order. -/
structure Prepared (workload ensured : Workload) (claims : List ResourceClaim)
    (events : List ApiEvent) (middle : Store) : Prop where
  finalized : Finalized workload ensured
  stored : middle.find? .workload workload.key = some ensured
  upserted : ClaimsUpserted ensured ensured.spec.resources.rows middle
  permuted : claims.Perm (indexedClaims ensured middle)
  listed : ∃ event ∈ events, event.request.listed .resourceClaim event.reply = some claims
  only : ∀ event ∈ events, ListsAs claims event ∧ event.request.sentStatus .workload = none

theorem only_of_makes {α : Type} {program : Client α} {outcome : Outcome α}
    (makes : program.Makes fun _ request => Aside request)
    (run : program.Runs shufflingServer start events outcome after) :
    ∀ event ∈ events, ListsAs claims event ∧ event.request.sentStatus .workload = none := by
  intro event member
  obtain ⟨unlisted, unsent⟩ := run.request_of_makes makes event member
  refine ⟨fun listed lists => ?_, unsent⟩
  rw [unlisted] at lists
  cases lists

theorem getClaims_only
    (run : (getClaims workload).Runs shufflingServer start events (.returned (.ok claims)) after) :
    ∀ event ∈ events, ListsAs claims event ∧ event.request.sentStatus .workload = none := by
  obtain ⟨reply, _, _, rfl, served, rest⟩ := run.of_call
  obtain ⟨rfl, listed, rfl, _⟩ := shufflingServer_list served
  cases rest
  rintro event (_ | ⟨_, member⟩)
  · exact ⟨fun _ lists => (Option.some.inj lists).symm, rfl⟩
  · cases member

theorem runs_ensureFinalizer {outcome : Outcome (Except GoError Workload)}
    (run : (ensureFinalizer workload).Runs shufflingServer start events outcome after) :
    (ensureFinalizer workload).Runs apiServer start events outcome after := by
  refine runs_apiServer_of_healthyServer (runs_healthyServer_of_shufflingServer ?_ run)
  exact ensureFinalizer_makes (fun _ => rfl) _

theorem ReachesPlanPhase.prepared (stored : start.find? .workload workload.key = some workload)
    (live : workload.isBeingDeleted = false)
    (reaches : ReachesPlanPhase shufflingServer settings workload start events ensured claims
      middle) : Prepared workload ensured claims events middle := by
  obtain ⟨_, finalized, upserted, first, second, third, rfl, finalizing, upserting, listing⟩ :=
    reaches
  obtain ⟨same, found⟩ := ensureFinalizer_finalized stored live (runs_ensureFinalizer finalizing)
  have upserts := runs_apiServer_of_healthyServer (runs_healthyServer_of_shufflingServer
    (ensureClaims_makes claimCalls_isList _ _) upserting)
  have workloads : upserted.table .workload = finalized.table .workload :=
    table_of_makes_leaves (ensureClaims_makes
      ⟨fun _ => .inl rfl, fun _ _ _ => .inr nofun, fun _ _ _ _ => .inr nofun⟩ _ _) upserts
  obtain ⟨claims, same', permuted, rfl, event, member, listed⟩ := getClaims_indexed listing
  cases same'
  have each : ClaimsUpserted (validated settings ensured) ensured.spec.resources.rows middle :=
    claimsUpserted_of_ensureClaims upserts
  refine ⟨same, ?_, each, permuted, ⟨event, by simp [member], listed⟩, fun event member => ?_⟩
  · exact (Store.find?_of_table workloads).trans found
  · rcases List.mem_append.mp member with early | later
    · exact only_of_makes (ensureFinalizer_makes (fun _ => ⟨fun _ => rfl, rfl⟩) _) finalizing
        event early
    · rcases List.mem_append.mp later with middle | last
      · exact only_of_makes (ensureClaims_makes ⟨fun _ => ⟨fun _ => rfl, rfl⟩,
          fun _ _ _ => ⟨fun _ => rfl, rfl⟩, fun _ _ _ _ => ⟨fun _ => rfl, rfl⟩⟩ _ _) upserting
          event middle
      · exact getClaims_only listing event last

theorem aggregateStatus_congr (permuted : others.Perm claims)
    (same : others.map summarize = claims.map summarize) :
    aggregateStatus others = aggregateStatus claims := by
  have summaries : (aggregateStatus others).claims = (aggregateStatus claims).claims := by
    rw [aggregateStatus_claims, aggregateStatus_claims, same]
  obtain ⟨ready, reason, message⟩ := aggregateStatus_perm permuted
  cases aggregation : aggregateStatus others
  simp_all

theorem UpToDate.congr {plan : Option WorkloadPlan} (upToDate : UpToDate status claims plan)
    (same : aggregateStatus others = aggregateStatus claims) : UpToDate status others plan := by
  obtain ⟨summaries, inputs, aggregated, runtime, ready⟩ := upToDate
  exact ⟨same ▸ summaries, inputs, same ▸ aggregated, runtime, ready⟩

/-- Of the claims only their number counts for the plan. -/
theorem PlanUpToDate.of_length (upToDate : PlanUpToDate later current claims after)
    (same : others.length = claims.length) : PlanUpToDate later current others after := by
  obtain ⟨plan, found, equal⟩ := upToDate
  refine ⟨plan, found, fun selectedBackend values selected => ?_⟩
  have number : (Reconcile.buildPlanClaims others).length =
      (Reconcile.buildPlanClaims claims).length := by
    simp [Reconcile.buildPlanClaims, same]
  have before := equal selectedBackend values selected
  unfold workloadPlanSpecEqual desiredPlanSpec at before ⊢
  rwa [number]

/-- The stored Workload after a run is the one it went on with, but for the status. -/
theorem quiet_of_prepared {version : Nat} (live : workload.isBeingDeleted = false)
    (prepared : Prepared workload ensured claims events middle)
    (claimsKept : after.table .resourceClaim = middle.table .resourceClaim)
    (shape : current = Store.stamp version { ensured with status })
    (found : after.find? .workload workload.key = some current) (settled :
      UpToDate current.status others (indexedPlan current after) ∧
          ((aggregateStatus others).ready = true →
            PlanUpToDate later current others after) ∨
        (aggregateStatus others).ready = true ∧
          Unplannable later (claimedContext later current others).workload others after) :
    Quiet later current others after := by
  subst shape
  have named : (Store.stamp version { ensured with status }).key = workload.key :=
    prepared.finalized.key
  refine ⟨?_, prepared.finalized.live.trans live, prepared.finalized.finalizer, ?_, settled⟩
  · rw [named]
    exact found
  · intro entry member
    obtain ⟨claim, foundClaim, equal⟩ := prepared.upserted entry member
    refine ⟨claim, ?_, equal⟩
    exact (Store.find?_of_table claimsKept).trans foundClaim

/-- The plan that a run has emitted is up to date for the Workload that it stores. -/
theorem planUpToDate_of_emission {version : Nat} {selectedBackend : SelectedBackend}
    {emitted : Store} (alike : SelectsAlike settings later)
    (shape : current = Store.stamp version { ensured with status })
    (selected : settings.selectBackend (claimedContext settings ensured claims).workload =
      .ok selectedBackend) (emission : (Reconcile.upsertWorkloadPlan settings.order settings.codec
      (claimedContext settings ensured claims).workload claims selectedBackend).Runs
        healthyServer middle events (.returned (.ok ())) emitted)
    (kept : after.table .workloadPlan = emitted.table .workloadPlan) :
    PlanUpToDate later current claims after := by
  subst shape
  obtain ⟨values, _, isEmitted⟩ :=
    Reconcile.upsertWorkloadPlan_emitted (runs_apiServer_of_healthyServer emission)
  obtain ⟨plan, found, equal⟩ := exists_equal_of_emitted isEmitted
  refine ⟨plan, ?_, fun other values reselected => ?_⟩
  · exact (Store.find?_of_table kept).trans found
  · have again := alike (claimedContext settings ensured claims).workload
      (Store.stamp version { ensured with status }) rfl rfl rfl
    rw [again, selected] at reselected
    cases reselected
    exact equal values

section

variable {planned : Workload} {got : Except GoError WorkloadPlan} {settled listed : Store}
  {second third fourth : List ApiEvent} {next : PhaseContext}
  {result : PhaseResult} (prepared : Prepared workload ensured claims events middle)
  (planning : (ensurePlan settings (settings.clock 2)
    (claimedContext settings ensured claims).workload claims (aggregateStatus claims)).Runs
      healthyServer middle second (.returned (planned, .ok ())) settled)
  (reads : (getPlan planned).Runs shufflingServer settled third (.returned got) listed)
  (writes : (executeStatusPhase settings { claimedContext settings ensured claims with
    workload := planned, plan := got.toOption }).Runs shufflingServer listed fourth
      (.returned (next, result)) after)
  (found : after.find? .workload workload.key = some current)

include prepared planning reads writes found

/-- The Workload that a run stores which has written its status, and what else it has
stored. -/
theorem stored_of_reported :
    (∃ version, current = Store.stamp version
      { ensured with status := (reported settings ensured claims got.toOption).status }) ∧
      indexedPlan current after = got.toOption ∧
      after.table .resourceClaim = middle.table .resourceClaim ∧
      after.table .workloadPlan = settled.table .workloadPlan := by
  obtain ⟨rfl, _⟩ := ensurePlan_ok planning
  obtain ⟨indexed, rfl⟩ := getPlan_indexed reads
  have leaves : ∀ kind, kind ≠ .workloadPlan → listed.table kind = middle.table kind :=
    fun kind other => table_of_makes_leaves
      (ensurePlan_makes ⟨fun _ _ => .inl rfl, fun _ => .inr other, fun _ => .inr other⟩
        _ _ _ _ _) (runs_apiServer_of_healthyServer planning)
  have storedToo : listed.find? .workload workload.key = some ensured := by
    exact (Store.find?_of_table (leaves .workload nofun)).trans prepared.stored
  have sameVersion :
      (claimedContext settings ensured claims).workload.metadata.resourceVersion =
        ensured.metadata.resourceVersion := rfl
  rw [← prepared.finalized.key] at storedToo found
  obtain ⟨⟨version, shape⟩, others⟩ := executeStatusPhase_stores writes storedToo sameVersion found
  refine ⟨⟨version, shape⟩, ?_, (others .resourceClaim nofun).trans
    (leaves .resourceClaim nofun), others .workloadPlan nofun⟩
  rw [indexed, shape]
  unfold indexedPlan
  rw [others .workloadPlan nofun]
  rfl

/-- It has the summaries of the claims that the run has listed. -/
theorem summaries_of_reported : current.status.claims = claims.map summarize := by
  obtain ⟨⟨version, shape⟩, _⟩ := stored_of_reported prepared planning reads writes found
  rw [shape, ← aggregateStatus_claims]
  exact upToDate_reported.summaries

/-- A run that has emitted its plan and written the status has nothing left to do, for
claims in any order in which their summaries are the same. -/
theorem quiet_of_reported (alike : SelectsAlike settings later)
    (live : workload.isBeingDeleted = false) (permuted : others.Perm claims)
    (same : others.map summarize = claims.map summarize) : Quiet later current others after := by
  obtain ⟨⟨version, shape⟩, plans, claimsKept, planKept⟩ :=
    stored_of_reported prepared planning reads writes found
  have aggregated : aggregateStatus others = aggregateStatus claims :=
    aggregateStatus_congr permuted same
  refine quiet_of_prepared live prepared claimsKept shape found (.inl ⟨?_, ?_⟩)
  · rw [plans, shape]
    exact upToDate_reported.congr aggregated
  · intro ready
    rw [aggregated] at ready
    rcases (ensurePlan_ok planning).2 with ⟨notReady, _⟩ | ⟨_, selectedBackend, selected, emission⟩
    · rw [ready] at notReady
      cases notReady
    · exact (planUpToDate_of_emission alike shape selected emission planKept).of_length
        permuted.length_eq

end

theorem executeStatusPhase_lists (context : PhaseContext) :
    (executeStatusPhase settings context).Makes fun _ request =>
      ∀ reply, request.listed .resourceClaim reply = none := by
  refine ⟨fun _ => rfl, fun updated => ?_⟩
  cases updated with
  | ok _ => trivial
  | error fault =>
    simp only [done_bind, pure_eq]
    split <;> trivial

section

variable {context : PhaseContext} {planned : Workload} {ensuredPlan : Except GoError Unit}
  (ends : EndsAfterPlan shufflingServer settings context planned ensuredPlan middle events
    after)

include ends

/-- After `EnsurePlan` a run lists no claims. -/
theorem EndsAfterPlan.unlisted : ∀ event ∈ events, ListsAs claims event := by
  intro event member listed lists
  have none : event.request.listed .resourceClaim event.reply = none := by
    cases ends with
    | abandoned fault => cases member
    | reported reads writes _ =>
      rcases List.mem_append.mp member with early | late
      · obtain ⟨reply, _, _, rfl, served, rest⟩ := reads.of_call
        obtain ⟨rfl, plans, rfl, _⟩ := shufflingServer_list served
        cases rest
        cases List.mem_singleton.mp early
        rfl
      · exact writes.request_of_makes (executeStatusPhase_lists _) event late _
  rw [none] at lists
  cases lists

/-- It sends a status unless it gives up. -/
theorem EndsAfterPlan.reports : Reports events ↔ ensuredPlan = .ok () := by
  cases ends with
  | abandoned fault => simp [Reports]
  | reported reads writes _ =>
    refine iff_of_true ?_ rfl
    cases writes with
    | call served rest => exact ⟨_, List.mem_append_right _ (.head _), rfl⟩

end

/-- How a run that succeeds for a Workload that is not being deleted goes. -/
theorem executePipeline_prepared (stored : start.find? .workload workload.key = some workload)
    (live : workload.isBeingDeleted = false)
    (run : (executePipeline settings workload).Runs shufflingServer start events
      (.returned (.ok result)) after) :
    ∃ ensured claims middle planned ensuredPlan settled early second rest,
      events = early ++ (second ++ rest) ∧
      Prepared workload ensured claims early middle ∧
      ReachesPlanPhase shufflingServer settings workload start early ensured claims middle ∧
      (ensurePlan settings (settings.clock 2) (claimedContext settings ensured claims).workload
        claims (aggregateStatus claims)).Runs healthyServer middle second
          (.returned (planned, ensuredPlan)) settled ∧
      EndsAfterPlan shufflingServer settings (claimedContext settings ensured claims) planned
        ensuredPlan settled rest after ∧
      (∀ event ∈ events, ListsAs claims event) ∧
      (Reports events ↔ ensuredPlan = .ok ()) := by
  have stays : ∀ ensured first finalized,
      (ensureFinalizer workload).Runs shufflingServer start first (.returned (.ok ensured))
        finalized → ensured.isBeingDeleted = false := fun ensured _ _ finalizing =>
    (ensureFinalizer_finalized stored live (runs_ensureFinalizer finalizing)).1.live.trans live
  obtain ⟨ensured, claims, middle, planned, ensuredPlan, settled, early, second, rest, rfl,
    reaches, ensuring, ends⟩ := executePipeline_cases live stays run
  have prepared := reaches.prepared stored live
  have planning := runs_healthyServer_of_shufflingServer
    (ensurePlan_makes ⟨fun _ _ => rfl, fun _ => rfl, fun _ => rfl⟩ _ _ _ _ _) ensuring
  have aside : ∀ event ∈ second, ListsAs claims event ∧ event.request.sentStatus .workload = none :=
    only_of_makes (ensurePlan_makes ⟨fun _ _ => ⟨fun _ => rfl, rfl⟩,
      fun _ => ⟨fun _ => rfl, rfl⟩, fun _ => ⟨fun _ => rfl, rfl⟩⟩ _ _ _ _ _) ensuring
  refine ⟨ensured, claims, middle, planned, ensuredPlan, settled, early, second, rest, rfl,
    prepared, reaches, planning, ends, ?_, ?_⟩
  · intro event member
    rcases List.mem_append.mp member with before | later
    · exact (prepared.only event before).1
    · rcases List.mem_append.mp later with planned | last
      · exact (aside event planned).1
      · exact ends.unlisted event last
  · rw [← ends.reports]
    constructor
    · rintro ⟨event, member, sends⟩
      rcases List.mem_append.mp member with before | later
      · rw [(prepared.only event before).2] at sends
        cases sends
      · rcases List.mem_append.mp later with planned | last
        · rw [(aside event planned).2] at sends
          cases sends
        · exact ⟨event, last, sends⟩
    · rintro ⟨event, member, sends⟩
      exact ⟨event, by simp [member], sends⟩

/-- A run that succeeds for a Workload that is not being deleted leaves a state in which
the next one has nothing to do. -/
theorem quiet_of_succeeded (alike : SelectsAlike settings later)
    (codec : later.codec = settings.codec)
    (stored : start.find? .workload workload.key = some workload)
    (live : workload.isBeingDeleted = false)
    (run : (executePipeline settings workload).Runs shufflingServer start events
      (.returned (.ok result)) after) (found : after.find? .workload workload.key = some current) :
    ∃ claims, (∃ event ∈ events,
        event.request.listed .resourceClaim event.reply = some claims) ∧
      Quiet later current claims after := by
  obtain ⟨ensured, claims, middle, planned, ensuredPlan, settled, early, second, rest, rfl,
    prepared, _, planning, ends, _⟩ := executePipeline_prepared stored live run
  obtain ⟨event, member, listed⟩ := prepared.listed
  refine ⟨claims, ⟨event, List.mem_append_left _ member, listed⟩, ?_⟩
  cases ends with
  | abandoned fault =>
    obtain ⟨rfl, ready, fails⟩ := ensurePlan_fails planning
    have same := prepared.stored
    rw [found] at same
    cases same
    have shape : current = Store.stamp current.metadata.resourceVersion
        { current with status := current.status } := rfl
    refine quiet_of_prepared live prepared rfl shape found (.inr ⟨ready, ?_⟩)
    exact fails.of_alike alike codec rfl rfl rfl rfl
  | reported reads writes _ =>
    exact quiet_of_reported prepared planning reads writes found alike live (.refl _) rfl

/-- A deletion that succeeds leaves a Workload that the next one leaves alone. -/
theorem settled_of_deleted (stored : start.find? .workload workload.key = some workload)
    (deleting : workload.isBeingDeleted = true)
    (run : (executePipeline settings workload).Runs shufflingServer start events
      (.returned (.ok result)) after) (found : after.find? .workload workload.key = some current) :
    current.isBeingDeleted = true ∧ (hasFinalizer current = false ∨ Waiting current after) := by
  unfold executePipeline at run
  rw [if_pos deleting] at run
  obtain ⟨phaseResult, _, _, middle, _, head, tail⟩ := run.exists_of_bind
  have ends : phaseResult.error = none ∧ after = middle := by
    split at tail
    · cases tail
    next noError =>
      split at tail
      · cases tail
        exact ⟨noError, rfl⟩
      · cases tail
        exact ⟨noError, rfl⟩
  obtain ⟨noError, rfl⟩ := ends
  obtain ⟨same, bare | ⟨rfl, waiting⟩⟩ := executeDeletionPhase_ends stored head noError found
  · exact ⟨same.trans deleting, .inl bare⟩
  · exact ⟨deleting, .inr waiting⟩

end

/-! ### The next run -/

/-- Every list of claims of the second run comes as one of the first did. -/
def SameOrder (first second : List ApiEvent) : Prop :=
  ∀ event ∈ first, ∀ claims,
    event.request.listed .resourceClaim event.reply = some claims →
      ∀ other ∈ second, ListsAs claims other

/-- The claims listed in two runs have the same summaries, in the same order. -/
def SameSummaries (first second : List ApiEvent) : Prop :=
  ∀ event ∈ first, ∀ claims,
    event.request.listed .resourceClaim event.reply = some claims →
      ∀ other ∈ second, ∀ others,
        other.request.listed .resourceClaim other.reply = some others →
          others.map summarize = claims.map summarize

instance (claims : List ResourceClaim) (event : ApiEvent) : Decidable (ListsAs claims event) :=
  inferInstanceAs (Decidable
    (∀ listed ∈ event.request.listed .resourceClaim event.reply, listed = claims))

instance (first second : List ApiEvent) : Decidable (SameOrder first second) :=
  inferInstanceAs (Decidable (∀ event ∈ first,
    ∀ claims ∈ event.request.listed .resourceClaim event.reply,
      ∀ other ∈ second, ListsAs claims other))

theorem executePipeline_still_of_deleting {admits : ApiEvent → Prop} {state : Store}
    (deleting : workload.isBeingDeleted = true)
    (settled : hasFinalizer workload = false ∨ Waiting workload state) :
    Still admits state (fun _ => True) (executePipeline settings workload) := by
  unfold executePipeline
  rw [if_pos deleting]
  apply Still.bind
  refine (executeDeletionPhase_still settled).mono fun result _ => ?_
  split
  · exact .done trivial
  · split
    · exact .done trivial
    · exact .done trivial

theorem selectsAlike_configured (settings later : Settings) (libraries : Selection.Libraries)
    (order otherOrder : IterOrder) (config : Config.OrchestratorConfig) :
    SelectsAlike (configured settings libraries order config)
      (configured later libraries otherOrder config) := by
  intro first second labels annotations spec
  dsimp only [configured]
  rw [Selection.selectBackend_order libraries otherOrder order,
    Selection.selectBackend_congr libraries order config labels annotations spec]

/-- Where the finalizer and the claims are there, a run gets to its plan phase without
any change. -/
theorem ReachesPlanPhase.still {ensured : Workload} {claims : List ResourceClaim}
    {before middle : Store} {events : List ApiEvent} (finalizer : hasFinalizer workload = true)
    (upserted : ClaimsUpserted workload workload.spec.resources.rows before)
    (reaches : ReachesPlanPhase shufflingServer settings workload before events ensured claims
      middle) : ensured = workload ∧ middle = before := by
  obtain ⟨_, finalized, ensuredStore, first, second, third, rfl, finalizing, upserting,
    listing⟩ := reaches
  have nothing : ensureFinalizer workload = .done (.ok workload) := if_pos finalizer
  rw [nothing] at finalizing
  cases finalizing
  have each : ClaimsUpserted (validated settings workload)
      (settings.order.range workload.spec.resources) before :=
    fun entry member => upserted entry ((settings.order.perm _).mem_iff.mp member)
  have still : Still (fun _ => True) before (· = .ok ())
      (ensureClaims settings.order (validated settings workload)) :=
    ensureClaimsFor_still each
  obtain ⟨_, _, _, rfl, _⟩ := getClaims_indexed listing
  exact ⟨rfl, still.final_eq upserting fun _ _ => trivial⟩

/-- After a run that has written its status, a run that succeeds changes nothing exactly if
it gives up before its own or lists claims with the same summaries. -/
theorem fixedPoint_of_reported {later : Settings} {start after final : Store}
    {firstEvents secondEvents : List ApiEvent} {again : ReconcileResult}
    (alike : SelectsAlike settings later)
    (stored : start.find? .workload workload.key = some workload)
    (live : workload.isBeingDeleted = false)
    (first : (executePipeline settings workload).Runs shufflingServer start firstEvents
      (.returned (.ok result)) after) (wrote : Reports firstEvents)
    (found : after.find? .workload workload.key = some current)
    (second : (executePipeline later current).Runs shufflingServer after secondEvents
      (.returned (.ok again)) final) :
    final = after ↔ (Reports secondEvents → SameSummaries firstEvents secondEvents) := by
  obtain ⟨ensured, claims, middle, planned, ensuredPlan, settled, early, emission, rest,
    joined, prepared, _, planning, ends, lists, reports⟩ :=
    executePipeline_prepared stored live first
  cases reports.mp wrote
  cases ends with
  | reported reads writes _ =>
    have quiet {others : List ResourceClaim} (permuted : others.Perm claims)
        (same : others.map summarize = claims.map summarize) :
        Quiet later current others after :=
      quiet_of_reported prepared planning reads writes found alike live permuted same
    have base := quiet (.refl _) rfl
    have summaries := summaries_of_reported prepared planning reads writes found
    obtain ⟨⟨version, shape⟩, _, claimsKept, _⟩ :=
      stored_of_reported prepared planning reads writes found
    have indexed : indexedClaims current after = indexedClaims ensured middle := by
      rw [shape]
      unfold indexedClaims
      rw [claimsKept]
      rfl
    obtain ⟨_, others, _, _, ensuredToo, _, earlyToo, _, _, joinedToo, preparedToo, reaches,
      planningToo, endsToo, listsToo, reportsToo⟩ :=
      executePipeline_prepared base.stored base.live second
    obtain ⟨rfl, rfl⟩ := reaches.still base.finalizer base.upserted
    have permuted : others.Perm claims :=
      (preparedToo.permuted.trans (.of_eq indexed)).trans prepared.permuted.symm
    cases endsToo with
    | abandoned fault =>
      refine iff_of_true (ensurePlan_fails planningToo).1 fun wroteToo => ?_
      cases reportsToo.mp wroteToo
    | reported readsToo writesToo _ =>
      obtain ⟨event, member, listed⟩ := prepared.listed
      obtain ⟨eventToo, memberToo, listedToo⟩ := preparedToo.listed
      constructor
      · -- the status that is stored now has the summaries of both lists
        rintro rfl _ first member claims' listed second memberToo others' listedToo
        cases lists first member _ listed
        cases listsToo second memberToo _ listedToo
        exact (summaries_of_reported preparedToo planningToo readsToo writesToo
          base.stored).symm.trans summaries
      · intro same
        have alikeLists := same (reportsToo.mpr rfl) event
          (joined ▸ List.mem_append_left _ member) claims listed eventToo
          (joinedToo ▸ List.mem_append_left _ memberToo) others listedToo
        exact (executePipeline_still (quiet permuted alikeLists)).final_eq second listsToo

/-- After a run that succeeded on a server that carries out its calls, a further run
changes nothing, whatever it sees of the clock and of the order of maps and however it
ends, if the claims are listed in the same order again; for a Workload that is being
deleted the order does not matter.  And if the first run has written its status, a further
run that succeeds changes nothing exactly if it gives up before its own, or its list shows
the same summaries. -/
theorem executePipeline_fixedPoint {settings later : Settings} {libraries : Selection.Libraries}
    {order otherOrder : IterOrder} {config : Config.OrchestratorConfig}
    {workload current : Workload} {start after final : Store}
    {firstEvents secondEvents : List ApiEvent} {result : ReconcileResult}
    {outcome : Outcome (Except GoError ReconcileResult)} (codec : later.codec = settings.codec)
    (stored : start.find? .workload workload.key = some workload)
    (first : (executePipeline (configured settings libraries order config) workload).Runs
      shufflingServer start firstEvents (.returned (.ok result)) after)
    (found : after.find? .workload workload.key = some current)
    (second : (executePipeline (configured later libraries otherOrder config) current).Runs
      shufflingServer after secondEvents outcome final) :
    (workload.isBeingDeleted = true ∨ SameOrder firstEvents secondEvents → final = after) ∧
    (workload.isBeingDeleted = false → Reports firstEvents →
      ∀ again, outcome = .returned (.ok again) →
        (final = after ↔ (Reports secondEvents → SameSummaries firstEvents secondEvents))) := by
  have alike := selectsAlike_configured settings later libraries order otherOrder config
  constructor
  · intro ordered
    cases marked : workload.isBeingDeleted with
    | true =>
      obtain ⟨deleting, settled⟩ := settled_of_deleted stored marked first found
      have still : Still (fun _ => True) after (fun _ => True)
          (executePipeline (configured later libraries otherOrder config) current) :=
        executePipeline_still_of_deleting deleting settled
      exact still.final_eq second fun _ _ => trivial
    | false =>
      obtain ⟨claims, ⟨event, member, listed⟩, quiet⟩ :=
        quiet_of_succeeded alike codec stored marked first found
      have same := ordered.resolve_left (by rw [marked]; exact nofun)
      exact (executePipeline_still quiet).final_eq second (same event member claims listed)
  · rintro live reports again rfl
    exact fixedPoint_of_reported alike stored live first reports found second

/-! ### Two orders -/

/-- A Workload with two resources, as the first object of a cluster. -/
def pairWorkload : Workload where
  metadata := { name := "web", ns := "default", uid := "u1", resourceVersion := 1 }
  spec := { resources := .ofList [("db", { type := "postgres" }), ("cache", { type := "redis" })] }
  status := default

@[irreducible] def pairStore : Store := Store.empty.insert .workload pairWorkload

def pairPipeline (workload : Workload) : Client (Except GoError ReconcileResult) :=
  executePipeline (configured quietSettings Selection.plainLibraries .entryOrder
    (classConfig "kubernetes")) workload

/-- The cluster after the first run. -/
@[irreducible] def pairSettled : Store :=
  ((pairPipeline pairWorkload).execute serve [] pairStore).2.2

/-- The Workload as the first run leaves it. -/
@[irreducible] def pairCurrent : Workload :=
  (pairSettled.find? .workload pairWorkload.key).getD pairWorkload

theorem pairSettled_find? : pairSettled.find? .workload pairWorkload.key = some pairCurrent := by
  decide +kernel

theorem runs_pairPipeline :
    ∃ result, (pairPipeline pairWorkload).Runs shufflingServer pairStore
      ((pairPipeline pairWorkload).execute serve [] pairStore).1 (.returned (.ok result))
      pairSettled := by
  have passes : ((pairPipeline pairWorkload).execute serve [] pairStore).2.1.passes
      (fun returned => returned.toOption.isSome) = true := by decide +kernel
  obtain ⟨returned, isReturned, succeeds⟩ := Outcome.exists_of_passes passes
  have run := runs_execute_reliable serve (pairPipeline pairWorkload) pairStore
  rw [isReturned] at run
  have stored : pairSettled = ((pairPipeline pairWorkload).execute serve [] pairStore).2.2 := by
    unfold pairSettled
    rfl
  rw [← stored] at run
  cases returned with
  | error fault => cases succeeds
  | ok result => exact ⟨result, runs_shufflingServer_of_healthyServer run⟩

/-- In the order of the store the second run changes nothing. -/
theorem executePipeline_fixedPoint_pair :
    ((pairPipeline pairCurrent).execute serve [] pairSettled).2.2 = pairSettled := by
  obtain ⟨result, first⟩ := runs_pairPipeline
  have second := runs_shufflingServer_of_healthyServer
    (runs_execute_reliable serve (pairPipeline pairCurrent) pairSettled)
  exact (executePipeline_fixedPoint rfl (by decide +kernel) first pairSettled_find? second).1
    (.inr (by decide +kernel))

/-- Carry out one call; lists come in reverse. -/
def serveReversed {answer : Type} : Call answer → Store → Except GoError answer × Store
  | .list kind selector, store =>
    (.ok ((store.table kind).rows.filter (selector.selects kind)).reverse, store)
  | request, store => serve request store

theorem runs_shufflingServer_of_reversed {α : Type} {program : Client α} {before after : Store}
    {events : List ApiEvent} {outcome : Outcome α}
    (run : program.Runs (.reliable serveReversed) before events outcome after) :
    program.Runs shufflingServer before events outcome after := by
  refine run.mono fun answer request before reply after served => ?_
  cases request with
  | list kind selector =>
    cases served
    exact ⟨_, rfl, List.reverse_perm _⟩
  | _ => exact ⟨reply, served, rfl⟩

/-- When the second run lists the claims in the other order, it succeeds and rewrites the
status of the Workload. -/
theorem executePipeline_rewrites_status :
    ∃ firstEvents secondEvents result again final rewritten,
      pairStore.find? .workload pairWorkload.key = some pairWorkload ∧
      (pairPipeline pairWorkload).Runs shufflingServer pairStore firstEvents
        (.returned (.ok result)) pairSettled ∧
      pairSettled.find? .workload pairWorkload.key = some pairCurrent ∧
      (pairPipeline pairCurrent).Runs shufflingServer pairSettled secondEvents
        (.returned (.ok again)) final ∧
      final.find? .workload pairWorkload.key = some rewritten ∧
      rewritten.status.claims ≠ pairCurrent.status.claims := by
  obtain ⟨result, first⟩ := runs_pairPipeline
  have passes : ((pairPipeline pairCurrent).execute serveReversed [] pairSettled).2.1.passes
      (fun returned => returned.toOption.isSome) = true := by decide +kernel
  obtain ⟨returned, isReturned, succeeds⟩ := Outcome.exists_of_passes passes
  have second := runs_execute_reliable serveReversed (pairPipeline pairCurrent)
    pairSettled
  rw [isReturned] at second
  have differs : (((pairPipeline pairCurrent).execute serveReversed []
      pairSettled).2.2.find? .workload pairWorkload.key).any
        (fun rewritten => rewritten.status.claims ≠ pairCurrent.status.claims) = true := by
    decide +kernel
  obtain ⟨rewritten, found, changed⟩ := (Option.any_eq_true _ _).mp differs
  cases returned with
  | error fault => cases succeeds
  | ok again =>
    exact ⟨_, _, result, again, _, rewritten, by decide +kernel, first, pairSettled_find?,
      runs_shufflingServer_of_reversed second, found, of_decide_eq_true changed⟩

end ScoreOrchestrator.Controller
