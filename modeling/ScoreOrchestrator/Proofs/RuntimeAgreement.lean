/-
Module: Proofs.RuntimeAgreement
Purpose: Whether the plan that the pipeline emits and the exposure that the registrar
  writes name the same runtime.
-/
import ScoreOrchestrator.Proofs.BackendSelection
import ScoreOrchestrator.Proofs.PipelineRuns
import ScoreOrchestrator.Proofs.PlanFreshness
import ScoreOrchestrator.Proofs.RegistrarConvergence

namespace ScoreOrchestrator

open Foundation Program Conditions
open Selection (Libraries)

variable {claims : List ResourceClaim} {settings : Settings} {workload : Workload}
  {before after : Store} {libraries : Libraries} {order : IterOrder}
  {config : Config.OrchestratorConfig}

namespace Selection

/-- The selection looks at the labels, the annotations and the spec of a Workload. -/
theorem selectBackend_congr (libraries : Libraries) (order : IterOrder)
    (config : Config.OrchestratorConfig) {first second : Workload}
    (labels : first.metadata.labels = second.metadata.labels)
    (annotations : first.metadata.annotations = second.metadata.annotations)
    (spec : first.spec = second.spec) :
    selectBackend libraries order config first = selectBackend libraries order config second := by
  obtain ⟨⟨⟩, _, _⟩ := first
  obtain ⟨⟨⟩, _, _⟩ := second
  cases labels
  cases annotations
  cases spec
  rfl

end Selection

namespace Controller

open Reconcile (planKey)

/-- The run sends a status of the Workload that reports its claims ready. -/
def ReportsClaimsReady (events : List ApiEvent) : Prop :=
  ∃ event ∈ events, ∃ sent, event.request.sentStatus .workload = some sent ∧
    isConditionTrue sent.status.conditions claimsReady = true

/-- A successful run of the pipeline that emits a plan: it changes a stored plan, or it
gets to report the claims ready, which it does once `UpsertWorkloadPlan` has
succeeded. -/
structure EmitsPlan (settings : Settings) (workload : Workload) (before after : Store) : Prop where
  stored : before.find? .workload workload.key = some workload
  live : workload.isBeingDeleted = false
  run : ∃ result events,
    (executePipeline settings workload).Runs apiServer before events
      (.returned (.ok result)) after ∧
    (after.table .workloadPlan ≠ before.table .workloadPlan ∨ ReportsClaimsReady events)

/-- A successful run of the registrar for a Workload that is there to stay, whose read
of the Workload has succeeded. -/
structure RegistersExposure (key : NamespacedName) (before after : Store) : Prop where
  live : ∃ workload, before.find? .workload key = some workload ∧
    workload.isBeingDeleted = false
  run : ∃ result events,
    (mainRegistrar key).Runs apiServer before events (.returned (.ok result)) after ∧
    ∀ event ∈ events, event.request.kind = .workload → event.reply.toOption.isSome = true

/-! ### The plan -/

section

variable {settings : Settings} {workload : Workload} {before after : Store}
  {events : List ApiEvent}

/-- An `EnsurePlan` that fails leaves the stored plans alone. -/
theorem ensurePlan_error_keeps {now : Time} {planned : Workload} {aggregation : ClaimAggregation}
    {fault : GoError}
    (run : (ensurePlan settings now workload claims aggregation).Runs apiServer before events
      (.returned (planned, .error fault)) after) :
    after.table .workloadPlan = before.table .workloadPlan := by
  unfold ensurePlan at run
  split at run
  · split at run
    · cases run
      rfl
    · obtain ⟨upserted, early, late, middle, joined, head, tail⟩ := run.exists_of_bind
      cases upserted with
      | ok _ => cases tail
      | error upsertFault =>
        have kept := ((Reconcile.upsertWorkloadPlan_safe before).sound head
          (.of_forall (fun _ _ => trivial) [] _)).2 _ rfl upsertFault rfl
        dsimp only at tail
        split at tail <;> cases tail <;> exact kept
  · cases run

theorem isConditionTrue_computeFinalStatus (runtimeNow readyNow : Time) (workload : Workload)
    (plan : Option WorkloadPlan) :
    isConditionTrue
        (computeFinalStatus runtimeNow readyNow workload plan).status.conditions
        claimsReady =
      isConditionTrue workload.status.conditions claimsReady := by
  have different : claimsReady ≠ Conditions.ready ∧
      claimsReady ≠ runtimeReady := by decide
  unfold computeFinalStatus withReadyCondition
  rw [isConditionTrue_setCondition_of_ne _ _ _ _ _ _ different.1]
  cases plan with
  | none => exact isConditionTrue_setCondition_of_ne _ _ _ _ _ _ different.2
  | some plan => exact isConditionTrue_setCondition_of_ne _ _ _ _ _ _ different.2

theorem isConditionTrue_claimedContext (settings : Settings) (ensured : Workload)
    (claims : List ResourceClaim) :
    isConditionTrue (claimedContext settings ensured claims).workload.status.conditions
        claimsReady = (aggregateStatus claims).ready := by
  simp only [claimedContext, updateWorkloadStatusFromAggregation,
    isConditionTrue_setCondition_self]
  cases (aggregateStatus claims).ready <;> rfl

/-- Before its status phase the pipeline sends no status of a Workload. -/
theorem not_reports_of_makes {α : Type} {program : Client α} {outcome : Outcome α}
    (makes : program.Makes fun _ request => request.leavesStatus .workload = true)
    (run : program.Runs apiServer before events outcome after) : ¬ ReportsClaimsReady events := by
  rintro ⟨event, member, sent, sends, _⟩
  have quiet := run.request_of_makes makes event member
  rw [Call.sentStatus_of_leavesStatus quiet] at sends
  cases sends

theorem reportsClaimsReady_append {early late : List ApiEvent} :
    ReportsClaimsReady (early ++ late) ↔ ReportsClaimsReady early ∨ ReportsClaimsReady late := by
  simp only [ReportsClaimsReady, List.mem_append, or_and_right, exists_or]

/-- The part of a run before the plan phase writes no plan and sends no status. -/
theorem ReachesPlanPhase.quiet {ensured : Workload} {middle : Store}
    (reaches : ReachesPlanPhase apiServer settings workload before events ensured claims middle) :
    middle.table .workloadPlan = before.table .workloadPlan ∧ ¬ ReportsClaimsReady events := by
  obtain ⟨_, finalized, upserted, first, second, third, rfl, finalizing, upserting,
    listing⟩ := reaches
  have upserts : ClaimCalls fun _ request => request.Leaves .workloadPlan :=
    { getClaim := fun _ => .inl rfl
      createClaim := fun _ _ _ => .inr nofun
      updateClaim := fun _ _ _ _ => .inr nofun }
  constructor
  · calc middle.table .workloadPlan = upserted.table .workloadPlan :=
          table_of_makes_leaves (getClaims_makes (fun _ _ reads => .inl reads) _) listing
      _ = finalized.table .workloadPlan :=
          table_of_makes_leaves (ensureClaims_makes upserts _ _) upserting
      _ = before.table .workloadPlan :=
          table_of_makes_leaves (ensureFinalizer_makes (fun _ => .inr nofun) _) finalizing
  · rw [reportsClaimsReady_append, reportsClaimsReady_append]
    have calls := PhaseCalls.of_leavesStatus fun _ request quiet => quiet
    rintro (reports | reports | reports)
    · exact not_reports_of_makes (ensureFinalizer_makes (fun _ => rfl) _) finalizing reports
    · exact not_reports_of_makes (ensureClaims_makes calls.claimCalls _ _) upserting reports
    · exact not_reports_of_makes (getClaims_makes calls.reads _) listing reports

/-- The status phase writes no plan, and sends the claim condition it was handed. -/
theorem executeStatusPhase_quiet {context : PhaseContext} {outcome : Outcome _}
    (run : (executeStatusPhase settings context).Runs apiServer before events outcome after) :
    after.table .workloadPlan = before.table .workloadPlan ∧
      (ReportsClaimsReady events →
        isConditionTrue context.workload.status.conditions
          claimsReady = true) := by
  constructor
  · refine table_of_makes_leaves ?_ run
    refine ⟨.inr nofun, fun updated => ?_⟩
    cases updated with
    | ok _ => trivial
    | error fault =>
      simp only [done_bind, pure_eq]
      split <;> trivial
  · rintro ⟨event, member, sent, sends, ready⟩
    have only : (executeStatusPhase settings context).Makes fun _ request =>
        ∀ sent, request.sentStatus .workload = some sent →
          sent = computeFinalStatus (settings.clock 3) (settings.clock 4) context.workload
            context.plan := by
      refine ⟨fun sent sends => (Option.some.inj sends).symm, fun updated => ?_⟩
      cases updated with
      | ok _ => trivial
      | error fault =>
        simp only [done_bind, pure_eq]
        split <;> trivial
    rw [run.request_of_makes only event member sent sends,
      isConditionTrue_computeFinalStatus] at ready
    exact ready

end

theorem exists_of_configured {selected : Reconcile.SelectedBackend}
    (isSelected : (configured settings libraries order config).selectBackend workload =
      .ok selected) :
    ∃ backend, Selection.selectBackend libraries order config workload = .ok backend ∧
      backend.toSelectedBackend = selected := by
  dsimp only [configured] at isSelected
  split at isSelected
  · cases isSelected
  next backend chosen => exact ⟨backend, chosen, Except.ok.inj isSelected⟩

/-- A plan that is emitted for the Workload with its finalizer is for the backend selected
for the Workload. -/
theorem class_of_emission {ensured : Workload} {selected : Reconcile.SelectedBackend}
    {emitted : Store} {events : List ApiEvent} (same : Finalized workload ensured)
    (isSelected : (configured settings libraries order config).selectBackend
      (claimedContext (configured settings libraries order config) ensured claims).workload =
        .ok selected) (emission : (Reconcile.upsertWorkloadPlan settings.order settings.codec
      (claimedContext (configured settings libraries order config) ensured claims).workload
      claims selected).Runs apiServer before events (.returned (.ok ())) emitted)
    (kept : after.table .workloadPlan = emitted.table .workloadPlan) :
    ∃ backend plan,
      Selection.selectBackend libraries order config workload = .ok backend ∧
      after.find? .workloadPlan workload.key = some plan ∧
      plan.spec.runtimeClass = backend.runtimeClass := by
  obtain ⟨_, _, isEmitted⟩ := Reconcile.upsertWorkloadPlan_emitted emission
  obtain ⟨plan, found, class_⟩ := isEmitted.runtimeClass
  have key : planKey (claimedContext (configured settings libraries order config)
      ensured claims).workload = workload.key := same.key
  obtain ⟨backend, isBackend, shown⟩ := exists_of_configured isSelected
  have congruent : Selection.selectBackend libraries order config workload = .ok backend :=
    (Selection.selectBackend_congr libraries order config same.labels same.annotations
      same.spec).symm.trans isBackend
  refine ⟨backend, plan, congruent, ?_, ?_⟩
  · rw [← key]
    exact (Store.find?_of_table kept).trans found
  · rw [class_, ← shown]
    rfl

/-- A run that emits a plan leaves one for the backend selected for the Workload. -/
theorem emitsPlan_class
    (emission : EmitsPlan (configured settings libraries order config) workload before after) :
    ∃ selected plan,
      Selection.selectBackend libraries order config workload = .ok selected ∧
      after.find? .workloadPlan workload.key = some plan ∧
      plan.spec.runtimeClass = selected.runtimeClass := by
  obtain ⟨stored, live, result, events, run, emits⟩ := emission
  have stays : ∀ ensured first finalized,
      (ensureFinalizer workload).Runs apiServer before first (.returned (.ok ensured))
        finalized → ensured.isBeingDeleted = false := fun ensured _ _ finalizing =>
    (ensureFinalizer_finalized stored live finalizing).1.live.trans live
  obtain ⟨ensured, claims, middle, planned, ensuredPlan, settled, early, second, rest, rfl,
    reaches, ensuring, ends⟩ := executePipeline_cases live stays run
  obtain ⟨earlyPlans, earlyQuiet⟩ := reaches.quiet
  have secondQuiet : ¬ ReportsClaimsReady second := not_reports_of_makes
    (ensurePlan_makes (PhaseCalls.of_leavesStatus fun _ _ quiet => quiet).planCalls _ _ _ _ _)
      ensuring
  rw [reportsClaimsReady_append, reportsClaimsReady_append] at emits
  cases ends with
  | abandoned fault =>
    have unchanged := (ensurePlan_error_keeps ensuring).trans earlyPlans
    rcases emits with changed | reports | reports | ⟨_, member, _⟩
    · exact absurd unchanged changed
    · exact absurd reports earlyQuiet
    · exact absurd reports secondQuiet
    · cases member
  | @reported _ listed _ third fourth got _ _ reads writes _ =>
    obtain ⟨latePlans, lateReports⟩ := executeStatusPhase_quiet writes
    have listedPlans : listed.table .workloadPlan = settled.table .workloadPlan :=
      table_of_makes_leaves (getPlan_makes (fun _ _ reads => .inl reads) _) reads
    obtain ⟨rfl, ⟨notReady, rfl, rfl⟩ | ⟨ready, selected, isSelected, upserting⟩⟩ :=
      ensurePlan_ok ensuring
    · have unchanged := (latePlans.trans listedPlans).trans earlyPlans
      have thirdQuiet : ¬ ReportsClaimsReady third := not_reports_of_makes
        (getPlan_makes (fun _ _ reads => Call.leavesStatus_of_isRead reads _) _) reads
      rw [reportsClaimsReady_append] at emits
      rcases emits with changed | reports | reports | reports | reports
      · exact absurd unchanged changed
      · exact absurd reports earlyQuiet
      · exact absurd reports secondQuiet
      · exact absurd reports thirdQuiet
      · have ready := lateReports reports
        rw [isConditionTrue_claimedContext, notReady] at ready
        cases ready
    · obtain ⟨_, _, _, _, _, _, _, finalizing, _, _⟩ := reaches
      have same := (ensureFinalizer_finalized stored live finalizing).1
      exact class_of_emission same isSelected upserting (latePlans.trans listedPlans)

/-! ### The exposure -/

theorem applyExposure_class {desired : WorkloadExposure} {result : ReconcileResult}
    {events : List ApiEvent}
    (run : (applyExposure desired).Runs apiServer before events (.returned (.ok result)) after) :
    ∃ exposure, after.find? .workloadExposure desired.key = some exposure ∧
      exposure.spec.runtimeClass = desired.spec.runtimeClass := by
  obtain ⟨exposure, found, spec, _⟩ := applyExposure_ok run
  exact ⟨exposure, found, congrArg WorkloadExposureSpec.runtimeClass spec⟩

/-- A successful registrar leaves an exposure for the Kubernetes runtime. -/
theorem registers_class {key : NamespacedName} (registers : RegistersExposure key before after) :
    ∃ exposure, after.find? .workloadExposure key = some exposure ∧
      exposure.spec.runtimeClass = runtimeClassKubernetes := by
  obtain ⟨⟨workload, stored, live⟩, result, events, run, succeed⟩ := registers
  obtain ⟨reply, middle, _, rfl, served, rest⟩ := run.of_call
  simp only [done_bind] at rest
  cases reply with
  | error fault => cases succeed _ (.head _) rfl
  | ok read =>
    obtain ⟨found, rfl⟩ := apiServer_get_ok served
    rw [stored] at found
    cases found
    dsimp only at rest
    rw [live] at rest
    obtain ⟨exposure, finds, class_⟩ := applyExposure_class rest
    have named : (desiredExposure runtimeClassKubernetes workload).key = key :=
      Store.key_of_find? stored
    rw [named] at finds
    exact ⟨exposure, finds, class_⟩

/-! ### Both -/

/-- The registrar writes no plan. -/
theorem RegistersExposure.plans {key : NamespacedName}
    (registers : RegistersExposure key before after) :
    after.table .workloadPlan = before.table .workloadPlan := by
  obtain ⟨_, _, _, run, _⟩ := registers
  refine table_of_makes_leaves (registerExposure_makes ?_ _ ?_ ?_ key) run
  · exact fun _ _ reads => .inl reads
  · exact fun _ => .inr nofun
  · exact fun _ _ => .inr nofun

/-- The pipeline writes no exposure. -/
theorem EmitsPlan.exposures (emission : EmitsPlan settings workload before after) :
    after.table .workloadExposure = before.table .workloadExposure := by
  obtain ⟨_, _, _, _, run, _⟩ := emission
  have calls : PipelineCalls fun _ request => request.Leaves .workloadExposure :=
    { reads := fun _ _ reads => .inl reads
      createClaim := fun _ _ _ => .inr nofun
      updateClaim := fun _ _ _ _ => .inr nofun
      createPlan := fun _ => .inr nofun
      updatePlan := fun _ => .inr nofun
      updateWorkloadStatus := fun _ _ _ _ => .inr nofun
      detachClaim := fun _ => .inr nofun
      deleteClaim := fun _ => .inr nofun
      updateWorkload := fun _ => .inr nofun }
  exact table_of_makes_leaves (executePipeline_makes calls settings workload) run

/-- In whichever order pipeline and registrar run, the stored plan is for the backend
selected for the Workload, and the stored exposure names the same runtime exactly if that
is the Kubernetes one. -/
theorem runtimeClass_agrees_iff {settings : Settings} {libraries : Libraries} {order : IterOrder}
    {config : Config.OrchestratorConfig} {workload : Workload} {before after : Store}
    (both : (∃ middle,
        EmitsPlan (configured settings libraries order config) workload before middle ∧
          RegistersExposure workload.key middle after) ∨
      ∃ middle, RegistersExposure workload.key before middle ∧
        EmitsPlan (configured settings libraries order config) workload middle after) :
    ∃ selected plan exposure,
      Selection.selectBackend libraries order config workload = .ok selected ∧
      after.find? .workloadPlan workload.key = some plan ∧
      after.find? .workloadExposure workload.key = some exposure ∧
      plan.spec.runtimeClass = selected.runtimeClass ∧
      (exposure.spec.runtimeClass = plan.spec.runtimeClass ↔
        selected.runtimeClass = runtimeClassKubernetes) := by
  have agree : ∀ {selected planned exposed : String}, planned = selected →
      exposed = runtimeClassKubernetes →
      (exposed = planned ↔ selected = runtimeClassKubernetes) := by
    rintro selected _ _ rfl rfl
    exact eq_comm
  rcases both with ⟨middle, emission, registers⟩ | ⟨middle, registers, emission⟩
  · obtain ⟨selected, plan, isSelected, found, planned⟩ := emitsPlan_class emission
    obtain ⟨exposure, finds, exposed⟩ := registers_class registers
    refine ⟨selected, plan, exposure, isSelected, ?_, finds, planned, agree planned exposed⟩
    exact (Store.find?_of_table registers.plans).trans found
  · obtain ⟨selected, plan, isSelected, found, planned⟩ := emitsPlan_class emission
    obtain ⟨exposure, finds, exposed⟩ := registers_class registers
    refine ⟨selected, plan, exposure, isSelected, found, ?_, planned, agree planned exposed⟩
    exact (Store.find?_of_table emission.exposures).trans finds

/-! ### Two runtimes -/

/-- A valid configuration with one backend, for a runtime. -/
def classConfig (runtimeClass : String) : Config.OrchestratorConfig :=
  Selection.webConfig [{ Selection.webBackend "main" "1" with runtimeClass }]

/-- A Workload with one port, as the first object of a cluster. -/
def firstWorkload : Workload where
  metadata := { name := "web", ns := "default", uid := "u1", resourceVersion := 1 }
  spec := { service := some { ports := [{ port := 80 }] } }
  status := default

@[irreducible] def firstStore : Store := Store.empty.insert .workload firstWorkload

def classPipeline (runtimeClass : String) : Client (Except GoError ReconcileResult) :=
  executePipeline (configured quietSettings Selection.plainLibraries .entryOrder
    (classConfig runtimeClass)) firstWorkload

@[irreducible] def classPlanned (runtimeClass : String) : Store :=
  ((classPipeline runtimeClass).execute serve [] firstStore).2.2

@[irreducible] def classExposed (runtimeClass : String) : Store :=
  ((mainRegistrar firstWorkload.key).execute serve [] (classPlanned runtimeClass)).2.2

/-- The pipeline succeeds and stores a plan. -/
def plansFor (runtimeClass : String) : Bool :=
  ((classPipeline runtimeClass).execute serve [] firstStore).2.1.passes
      (fun returned => returned.toOption.isSome) &&
    (classPlanned runtimeClass).table .workloadPlan ≠ firstStore.table .workloadPlan

theorem emitsPlan_of_plansFor {runtimeClass : String} (plans : plansFor runtimeClass = true) :
    EmitsPlan (configured quietSettings Selection.plainLibraries .entryOrder
      (classConfig runtimeClass)) firstWorkload firstStore (classPlanned runtimeClass) := by
  unfold plansFor at plans
  rw [Bool.and_eq_true, decide_eq_true_eq] at plans
  obtain ⟨returned, isReturned, succeeds⟩ := Outcome.exists_of_passes plans.1
  have run := runs_execute serve (classPipeline runtimeClass) [] firstStore
  rw [isReturned] at run
  have stored : classPlanned runtimeClass =
      ((classPipeline runtimeClass).execute serve [] firstStore).2.2 := by
    unfold classPlanned
    rfl
  rw [← stored] at run
  cases returned with
  | error fault => cases succeeds
  | ok result => exact ⟨by decide +kernel, by decide +kernel, result, _, run, .inl plans.2⟩

/-- The registrar finds the Workload and succeeds. -/
def registersFor (runtimeClass : String) : Bool :=
  ((classPlanned runtimeClass).find? .workload firstWorkload.key).any
      (fun workload => !workload.isBeingDeleted) &&
    ((mainRegistrar firstWorkload.key).execute serve []
      (classPlanned runtimeClass)).2.1.passes (fun returned => returned.toOption.isSome) &&
    ((mainRegistrar firstWorkload.key).execute serve [] (classPlanned runtimeClass)).1.all
      fun event => event.request.kind ≠ .workload || event.reply.toOption.isSome

theorem registers_of_registersFor {runtimeClass : String}
    (registers : registersFor runtimeClass = true) :
    RegistersExposure firstWorkload.key (classPlanned runtimeClass)
      (classExposed runtimeClass) := by
  unfold registersFor at registers
  rw [Bool.and_eq_true, Bool.and_eq_true] at registers
  obtain ⟨⟨there, passes⟩, reads⟩ := registers
  obtain ⟨workload, found, live⟩ := (Option.any_eq_true _ _).mp there
  obtain ⟨returned, isReturned, succeeds⟩ := Outcome.exists_of_passes passes
  have run := runs_execute serve (mainRegistrar firstWorkload.key) []
    (classPlanned runtimeClass)
  rw [isReturned] at run
  have stored : classExposed runtimeClass =
      ((mainRegistrar firstWorkload.key).execute serve [] (classPlanned runtimeClass)).2.2 := by
    unfold classExposed
    rfl
  rw [← stored] at run
  cases returned with
  | error fault => cases succeeds
  | ok result =>
    refine ⟨⟨workload, found, by simpa using live⟩, result, _, run, ?_⟩
    intro event member isWorkload
    have read := List.all_eq_true.mp reads event member
    simpa [isWorkload] using read

theorem runtimeClass_agrees_kubernetes :
    ∃ plan exposure,
      (classExposed "kubernetes").find? .workloadPlan firstWorkload.key = some plan ∧
      (classExposed "kubernetes").find? .workloadExposure firstWorkload.key = some exposure ∧
      exposure.spec.runtimeClass = plan.spec.runtimeClass := by
  obtain ⟨selected, plan, exposure, isSelected, found, finds, _, agrees⟩ :=
    runtimeClass_agrees_iff (.inl ⟨classPlanned "kubernetes",
      emitsPlan_of_plansFor (by decide +kernel), registers_of_registersFor (by decide +kernel)⟩)
  have kubernetes : ∀ selected ∈ (Selection.selectBackend Selection.plainLibraries
      .entryOrder (classConfig "kubernetes") firstWorkload).toOption,
        selected.runtimeClass = runtimeClassKubernetes := by
    decide +kernel
  exact ⟨plan, exposure, found, finds,
    agrees.mpr (kubernetes selected (by rw [isSelected]; rfl))⟩

/-- With a backend for another runtime, which the validator accepts, the plan is for that
runtime and the exposure for Kubernetes. -/
theorem runtimeClass_disagrees_nomad :
    Config.validate Selection.plainValidator (classConfig "nomad") = .ok () ∧
    EmitsPlan (configured quietSettings Selection.plainLibraries .entryOrder
      (classConfig "nomad")) firstWorkload firstStore (classPlanned "nomad") ∧
    RegistersExposure firstWorkload.key (classPlanned "nomad") (classExposed "nomad") ∧
    ((classExposed "nomad").find? .workloadPlan firstWorkload.key).map
      (fun plan => plan.spec.runtimeClass) = some "nomad" ∧
    ((classExposed "nomad").find? .workloadExposure firstWorkload.key).map
      (fun exposure => exposure.spec.runtimeClass) = some "kubernetes" :=
  ⟨by decide +kernel, emitsPlan_of_plansFor (by decide +kernel),
    registers_of_registersFor (by decide +kernel), by decide +kernel, by decide +kernel⟩

end Controller

end ScoreOrchestrator
