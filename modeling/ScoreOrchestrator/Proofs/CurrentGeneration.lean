/-
Module: Proofs.CurrentGeneration
Purpose: Whether a stored Ready=True is about the generation the pipeline worked
  on, over every interleaving of user edits, pipeline runs and runtime runs.
-/
import ScoreOrchestrator.Foundation.Concurrency
import ScoreOrchestrator.Proofs.Footprints
import ScoreOrchestrator.Proofs.PlanLog

namespace ScoreOrchestrator.Runtime

open Foundation Program Conditions
open Controller

variable {actor : PlanActor} {answer : Type} {request : Call answer} {before after logged : Logged}
  {claims : List ResourceClaim} {reads : EventOn Logged → Prop} {generation : Nat}

/-! ### The interleavings -/

/-- A list that shows a plan as Ready is answered when its status is newer than
its spec. -/
def ReadsFresh (event : EventOn Logged) : Prop :=
  ∀ plan ∈ (event.request.listed .workloadPlan event.reply).getD [],
    plan.status.phase = .ready → statusIsNewest plan.key event.before.log = true

instance (event : EventOn Logged) : Decidable (ReadsFresh event) :=
  inferInstanceAs (Decidable (∀ plan ∈ _, _ → _ = true))

/-- Everybody else: any call to the API server that writes no plan. -/
def OtherCall (before after : Logged) : Prop :=
  after.log = before.log ∧ ∃ (answer : Type) (request : Call answer)
    (reply : Except GoError answer), request.Leaves .workloadPlan ∧
      apiServer request before.store reply after.store

/-- The interleavings.  The calls of the pipeline are all carried out; those of
the runtime may fail. -/
def generationRules (reads : EventOn Logged → Prop) :
    Rules PlanActor Call GoError Logged where
  service
    | .pipeline => loggedServer .pipeline healthyServer
    | .runtime worker => loggedServer (.runtime worker) apiServer
  starts
    | .pipeline, program => ∃ settings key, program = (reconcileWorkload settings key).discard
    | .runtime _, program => ∃ settings key, program = (reconcilePlan settings key).discard
  admits
    | .pipeline, _, event => reads event
    | .runtime _, _, _ => True
  environment := OtherCall

/-! ### The terms of each actor -/

/-- A run has listed this plan alone, with a status that the runtime wrote after
it had read a spec for the generation. -/
def SeenCurrent (plan : WorkloadPlan) (generation : Nat) (history : List (EventOn Logged)) : Prop :=
  ∃ listing ∈ history,
    listing.request.listed .workloadPlan listing.reply = some [plan] ∧
      PhaseWrittenFor plan generation listing.before.log

/-- A Workload status with Ready=True is sent only after the run has seen a plan
in phase Ready, written for the generation of that Workload. -/
def ReadyIsCurrent (history : List (EventOn Logged)) (event : EventOn Logged) : Prop :=
  ∀ workload, event.request.sentStatus .workload = some workload →
    isConditionTrue workload.status.conditions Conditions.ready = true →
      ∃ plan, plan.status.phase = .ready ∧
        SeenCurrent plan workload.metadata.generation history

/-- Only the pipeline changes specs, and it may rely on that. -/
def generationContract (actor : PlanActor) : Contract Call GoError Logged where
  service := (generationRules ReadsFresh).service actor
  rely before after := PlanStep before after ∧ (actor = .pipeline → KeepsSpecs before after)
  rely_refl logged := ⟨.refl logged, fun _ => .refl logged⟩
  rely_trans early late := ⟨early.1.trans late.1, fun own => (early.2 own).trans (late.2 own)⟩
  admits := (generationRules ReadsFresh).admits actor
  guarantee history event :=
    PlanStep event.before event.after ∧
      (actor = .pipeline → ReadyIsCurrent history event) ∧
      (actor ≠ .pipeline → KeepsSpecs event.before event.after)

theorem logged_of_service {reply : Except GoError answer}
    (served : (generationContract actor).service request before reply after) :
    apiServer request before.store reply after.store ∧
      after.log = (actor.record request reply).toList ++ before.log := by
  cases actor with
  | pipeline => exact ⟨apiServer_of_healthyServer served.1, served.2⟩
  | runtime worker => exact served

/-- A call that touches neither plans nor the status of a Workload. -/
def IsNeutral ⦃answer : Type⦄ (request : Call answer) : Prop :=
  request.Leaves .workloadPlan ∧ request.sentStatus .workload = none

theorem isNeutral_of_isRead ⦃answer : Type⦄ (request : Call answer)
    (reads : request.isRead = true) : IsNeutral request := by
  refine ⟨.inl reads, ?_⟩
  cases request with
  | get | list => rfl
  | create | update | updateStatus | patch | patchStatus | delete => cases reads

theorem IsNeutral.keeps (neutral : IsNeutral request) (history : List (EventOn Logged))
    {reply : Except GoError answer}
    (served : (generationContract actor).service request before reply after) :
    (generationContract actor).guarantee history { request, reply, before, after } ∧
      (generationContract actor).rely before after := by
  obtain ⟨answered, log⟩ := logged_of_service served
  obtain ⟨step, specs⟩ := planStep_of_leaves neutral.1 answered log
  refine ⟨⟨step, fun _ workload sent => ?_, fun _ => specs⟩, step, fun _ => specs⟩
  rw [neutral.2] at sent
  cases sent

/-- A program of such calls may run anywhere. -/
theorem safe_of_neutral {α : Type} {program : Client α} (makes : program.Makes IsNeutral)
    (history : List (EventOn Logged)) (state : Logged) :
    Safe (generationContract actor)
      (fun _ _ later => (generationContract actor).rely state later) program history state :=
  Safe.of_makes makes fun _ _ neutral history _ _ _ served _ =>
    neutral.keeps history served

/-! ### The runtime -/

theorem reconcileDeployment_neutral (settings : RuntimeSettings) (plan : WorkloadPlan)
    (workload : Workload) : (reconcileDeployment settings plan workload).Makes IsNeutral :=
  reconcileDeployment_makes (fun _ => isNeutral_of_isRead _ rfl)
    (fun _ _ => ⟨.inr nofun, rfl⟩) (fun _ _ _ => ⟨.inr nofun, rfl⟩)

theorem reconcileService_neutral (plan : WorkloadPlan) (workload : Workload) :
    (reconcileService plan workload).Makes IsNeutral :=
  reconcileService_makes (fun _ => isNeutral_of_isRead _ rfl)
    (fun _ => ⟨.inr nofun, rfl⟩) (fun _ _ => ⟨.inr nofun, rfl⟩)

section

variable {worker : Nat} {plan : WorkloadPlan}
  {history : List (EventOn Logged)} {state : Logged}

theorem writePlanStatus_safe (held : Held plan state) (status : WorkloadPlanStatus) :
    Safe (generationContract (.runtime worker)) (fun _ _ _ => True)
      (writePlanStatus plan status) history state := by
  intro before moved reply after served _
  obtain ⟨answered, log⟩ := logged_of_service served
  cases reply with
  | error fault =>
    have store := apiServer_of_error answered
    have specs : KeepsSpecs before after := .of_table (by rw [store])
    refine ⟨⟨planStep_of_unchanged store log, by simp, fun _ => specs⟩, ?_⟩
    exact fun _ _ => trivial
  | ok value =>
    have still := held.step moved.1
    have metadata : ({ plan with status } : WorkloadPlan).metadata = plan.metadata := rfl
    obtain ⟨step, specs⟩ := planStep_of_statusWritten still metadata rfl answered log
    refine ⟨⟨step, by simp, fun _ => specs⟩, ?_⟩
    exact fun _ _ => trivial

theorem updateWorkloadPlanStatus_safe (held : Held plan state) :
    Safe (generationContract (.runtime worker)) (fun _ _ _ => True)
      (updateWorkloadPlanStatus plan) history state := by
  intro before moved reply after served _
  obtain ⟨kept, step, _⟩ := (isNeutral_of_isRead _ rfl).keeps history served
  refine ⟨kept, ?_⟩
  have still := (held.step moved.1).step step
  simp only [done_bind]
  cases reply with
  | ok deployment => exact writePlanStatus_safe still _
  | error fault =>
    dsimp only
    split
    · exact writePlanStatus_safe still _
    · exact fun _ _ => trivial

theorem applyPlan_safe (settings : RuntimeSettings) (workload : Workload) (held : Held plan state) :
    Safe (generationContract (.runtime worker)) (fun _ _ _ => True)
      (applyPlan settings plan workload) history state := by
  apply Safe.bind
  refine (safe_of_neutral (reconcileDeployment_neutral settings plan workload)
    history state).mono ?_
  intro deployed history deployedState moved
  cases deployed with
  | error fault => exact fun _ _ => trivial
  | ok _ =>
    apply Safe.bind
    refine (safe_of_neutral (reconcileService_neutral plan workload) history
      deployedState).mono ?_
    intro exposed history servedState further
    cases exposed with
    | error fault => exact fun _ _ => trivial
    | ok _ =>
      apply Safe.bind
      have still := (held.step moved.1).step further.1
      refine (updateWorkloadPlanStatus_safe still).mono ?_
      intro updated _ _ _
      cases updated <;> exact fun _ _ => trivial

theorem reconcilePlan_safe (settings : RuntimeSettings) (key : NamespacedName) :
    Safe (generationContract (.runtime worker)) (fun _ _ _ => True)
      (reconcilePlan settings key) history state := by
  intro before _ reply after served _
  obtain ⟨answered, log⟩ := logged_of_service served
  refine ⟨((isNeutral_of_isRead _ rfl).keeps history served).1, ?_⟩
  simp only [done_bind]
  cases reply with
  | error fault =>
    dsimp only
    split <;> exact fun _ _ => trivial
  | ok plan =>
    obtain ⟨found, same⟩ := apiServer_get_ok answered
    have held : Held plan after := by
      apply Held.of_found
      · rw [log]
        exact .head _
      · rw [same]
        exact Store.mem_of_find? found
    dsimp only
    split
    · exact fun _ _ => trivial
    · intro before moved reply after served _
      obtain ⟨kept, step, _⟩ := (isNeutral_of_isRead _ rfl).keeps _ served
      refine ⟨kept, ?_⟩
      cases reply with
      | error fault => exact fun _ _ => trivial
      | ok workload => exact applyPlan_safe settings workload ((held.step moved.1).step step)

end

/-! ### The pipeline -/

/-- Where the status of a plan is newer than its spec, the runtime had read that
spec. -/
theorem phaseWrittenFor_of_newest {plan : WorkloadPlan} (kept : PlanLog logged)
    (member : plan ∈ (logged.store.table .workloadPlan).rows)
    (newest : statusIsNewest plan.key logged.log = true) :
    PhaseWrittenFor plan plan.spec.observedWorkloadGeneration logged.log := by
  unfold statusIsNewest at newest
  split at newest
  next sent last =>
    obtain ⟨specs, statuses⟩ := kept.current plan member sent last
    obtain ⟨writes, later, earlier, split, others⟩ := List.find?_eq_some_iff_append.mp last
    have keys : sent.key = plan.key := of_decide_eq_true writes
    have allRead := kept.readBefore
    rw [split] at allRead
    obtain ⟨seen, read, seenKey, seenSpec⟩ := allRead.of_append
    refine ⟨later, sent, earlier, split, ?_, keys, statuses.symm, seen, read,
      seenKey.trans keys, ?_⟩
    · intro record before
      simpa using others record before
    · rw [seenSpec, specs]
  next => cases newest

/-- The plan of a Workload is stored, for the generation of that Workload. -/
def Planned (workload : Workload) (logged : Logged) : Prop :=
  ∃ spec, specAt workload.key logged = some spec ∧
    spec.workloadRef = workload.key ∧
    spec.observedWorkloadGeneration = workload.metadata.generation

theorem Planned.keeps {workload : Workload} (planned : Planned workload before)
    (specs : KeepsSpecs before after) : Planned workload after := by
  obtain ⟨spec, stored, names, generations⟩ := planned
  exact ⟨spec, (specs workload.key).trans stored, names, generations⟩

/-- What an upsert of the plan of a Workload leaves. -/
def Upserts (workload : Workload) (returned : Except GoError Unit) (_ : List (EventOn Logged))
    (later : Logged) : Prop :=
  PlanLog later ∧ (returned = .ok () → Planned workload later)

section

variable {workload : Workload} {history : List (EventOn Logged)} {state : Logged}
  {plan : WorkloadPlan}

theorem safe_done_error (fault : GoError) (kept : PlanLog state) :
    Safe (generationContract .pipeline) (Upserts workload)
      (.done (.error fault)) history state :=
  fun _ moved => ⟨moved.1.invariant kept, nofun⟩

theorem safe_done_ok (kept : PlanLog state) (planned : Planned workload state) :
    Safe (generationContract .pipeline) (Upserts workload) (.done (.ok ())) history state :=
  fun _ moved => ⟨moved.1.invariant kept, fun _ => planned.keeps (moved.2 rfl)⟩

/-- A write of the plan keeps the promises and leaves the plan in place. -/
theorem specWritten_safe {value : WorkloadPlan} {request : Call WorkloadPlan}
    (writes : request = .create .workloadPlan plan ∨ request = .update .workloadPlan plan)
    (served : (generationContract .pipeline).service request before (.ok value) after)
    (keys : plan.key = workload.key) (names : plan.spec.workloadRef = workload.key)
    (generations : plan.spec.observedWorkloadGeneration = workload.metadata.generation) :
    (generationContract .pipeline).guarantee history
        { request, reply := .ok value, before, after } ∧
      (PlanLog before → PlanLog after ∧ Planned workload after) := by
  obtain ⟨answered, log⟩ := logged_of_service served
  have written : apiServer (.create .workloadPlan plan) before.store (.ok value) after.store ∨
      apiServer (.update .workloadPlan plan) before.store (.ok value) after.store := by
    rcases writes with rfl | rfl
    · exact .inl answered
    · exact .inr answered
  have recorded : after.log = .specWritten plan :: before.log := by
    rcases writes with rfl | rfl <;> exact log
  have unsent : request.sentStatus .workload = none := by
    rcases writes with rfl | rfl <;> rfl
  obtain ⟨step, stored⟩ := planStep_of_written written recorded
  refine ⟨⟨step, fun _ other sent => ?_, fun other => absurd rfl other⟩, fun kept => ?_⟩
  · rw [unsent] at sent
    cases sent
  · refine ⟨step.invariant kept, plan.spec, ?_, names, generations⟩
    rw [← keys]
    exact stored kept

/-- A write that is refused changes nothing. -/
theorem refused_safe {fault : GoError} (unsent : request.sentStatus .workload = none)
    (served : (generationContract .pipeline).service request before (.error fault) after) :
    (generationContract .pipeline).guarantee history
        { request, reply := .error fault, before, after } ∧
      PlanStep before after := by
  obtain ⟨answered, log⟩ := logged_of_service served
  have step : PlanStep before after := planStep_of_unchanged (apiServer_of_error answered) log
  refine ⟨⟨step, fun _ workload sent => ?_, fun other => absurd rfl other⟩, step⟩
  rw [unsent] at sent
  cases sent

theorem updatePlan_planned {desiredSpec : WorkloadPlanSpec} (context : String)
    (kept : PlanLog state) (keys : plan.key = workload.key)
    (stored : specAt workload.key state = some plan.spec)
    (names : desiredSpec.workloadRef = workload.key)
    (generations : desiredSpec.observedWorkloadGeneration = workload.metadata.generation) :
    Safe (generationContract .pipeline) (Upserts workload)
      (Reconcile.updatePlan plan desiredSpec context) history state := by
  unfold Reconcile.updatePlan
  split
  next equal =>
    simp only [Reconcile.workloadPlanSpecEqual, Bool.and_eq_true,
      decide_eq_true_eq] at equal
    obtain ⟨⟨⟨sameNames, sameGenerations⟩, _⟩, _⟩ := equal
    exact safe_done_ok kept ⟨plan.spec, stored, sameNames.trans names,
      sameGenerations.trans generations⟩
  next =>
    intro before moved reply after served _
    have keptBefore := moved.1.invariant kept
    cases reply with
    | ok value =>
      have sentKeys : ({ plan with spec := desiredSpec } : WorkloadPlan).key =
          workload.key := keys
      obtain ⟨promise, leaves⟩ := specWritten_safe (.inr rfl) served sentKeys names
        generations
      obtain ⟨keptAfter, planned⟩ := leaves keptBefore
      exact ⟨promise, safe_done_ok keptAfter planned⟩
    | error fault =>
      obtain ⟨promise, step⟩ := refused_safe rfl served
      exact ⟨promise, safe_done_error _ (step.invariant keptBefore)⟩

/-- The pipeline reads a plan. -/
theorem get_plan_safe {key : NamespacedName} {reply : Except GoError WorkloadPlan}
    (kept : PlanLog before)
    (served : (generationContract .pipeline).service (.get .workloadPlan key) before reply after) :
    (generationContract .pipeline).guarantee history
        { request := .get .workloadPlan key, reply, before, after } ∧
      PlanLog after ∧
      ∀ plan, reply = .ok plan → plan.key = key ∧
        specAt key after = some plan.spec := by
  obtain ⟨promise, step, _⟩ := (isNeutral_of_isRead _ rfl).keeps history served
  refine ⟨promise, step.invariant kept, ?_⟩
  intro plan returned
  subst returned
  obtain ⟨found, same⟩ := apiServer_get_ok (logged_of_service served).1
  refine ⟨Store.key_of_find? found, ?_⟩
  unfold specAt
  rw [same, found]
  rfl

theorem createPlan_planned {desiredSpec : WorkloadPlanSpec} (kept : PlanLog state)
    (names : desiredSpec.workloadRef = workload.key)
    (generations : desiredSpec.observedWorkloadGeneration = workload.metadata.generation) :
    Safe (generationContract .pipeline) (Upserts workload)
      (Reconcile.createPlan workload desiredSpec) history state := by
  intro before moved reply after served _
  have keptBefore := moved.1.invariant kept
  simp only [done_bind]
  cases reply with
  | ok value =>
    obtain ⟨promise, leaves⟩ := specWritten_safe (.inl rfl) served rfl names
      generations
    obtain ⟨keptAfter, planned⟩ := leaves keptBefore
    exact ⟨promise, safe_done_ok keptAfter planned⟩
  | error fault =>
    obtain ⟨promise, step⟩ := refused_safe rfl served
    refine ⟨promise, ?_⟩
    have keptAfter := step.invariant keptBefore
    dsimp only
    split
    · intro before moved reply after served _
      obtain ⟨promise, keptRead, found⟩ := get_plan_safe (moved.1.invariant keptAfter) served
      refine ⟨promise, ?_⟩
      cases reply with
      | error getErr => exact safe_done_error _ keptRead
      | ok existingPlan =>
        obtain ⟨keys, stored⟩ := found existingPlan rfl
        exact updatePlan_planned _ keptRead keys stored names generations
    · exact safe_done_error _ keptAfter

theorem emit_planned {settings : Settings} {selectedBackend : Reconcile.SelectedBackend}
    {write : WorkloadPlanSpec → Client (Except GoError Unit)} (kept : PlanLog state)
    (writes : ∀ desiredSpec history later,
      (generationContract .pipeline).rely state later →
      desiredSpec.workloadRef = workload.key →
      desiredSpec.observedWorkloadGeneration = workload.metadata.generation →
      Safe (generationContract .pipeline) (Upserts workload)
        (write desiredSpec) history later) :
    Safe (generationContract .pipeline) (Upserts workload)
      (Reconcile.upsertWorkloadPlan.emit settings.order settings.codec workload
        claims selectedBackend write) history state := by
  apply Safe.bind
  refine (safe_of_neutral (Reconcile.resolveAllPlaceholders_makes
    (fun _ _ => isNeutral_of_isRead _ rfl) _ _ _ _) history state).mono ?_
  intro resolved history later moved
  have keptLater := moved.1.invariant kept
  cases resolved with
  | error fault => exact safe_done_error _ keptLater
  | ok resolvedValues =>
    dsimp only
    split
    · exact safe_done_error _ keptLater
    · exact writes _ history later moved rfl rfl

theorem upsertWorkloadPlan_planned {settings : Settings}
    {selectedBackend : Reconcile.SelectedBackend} (kept : PlanLog state) :
    Safe (generationContract .pipeline) (Upserts workload)
      (Reconcile.upsertWorkloadPlan settings.order settings.codec workload claims
        selectedBackend) history state := by
  unfold Reconcile.upsertWorkloadPlan
  split
  · exact safe_done_error _ kept
  next named =>
    rw [if_neg named]
    intro before moved reply after served _
    obtain ⟨promise, keptRead, found⟩ := get_plan_safe (moved.1.invariant kept) served
    refine ⟨promise, ?_⟩
    simp only [done_bind]
    cases reply with
    | ok plan =>
      obtain ⟨keys, stored⟩ := found plan rfl
      apply emit_planned keptRead
      intro desiredSpec history later moved names generations
      have still : specAt workload.key later = some plan.spec :=
        (moved.2 rfl workload.key).trans stored
      exact updatePlan_planned _ (moved.1.invariant keptRead) keys still names
        generations
    | error fault =>
      dsimp only
      split
      · apply emit_planned keptRead
        intro desiredSpec history later moved names generations
        exact createPlan_planned (moved.1.invariant keptRead) names generations
      · exact safe_done_error _ keptRead

/-- What the index of plans has for a Workload. -/
def listedPlans (workload : Workload) (store : Store) : List WorkloadPlan :=
  (store.table .workloadPlan).rows.filter
    ((ListSelector.matchingFields "workloadplan.workloadRef"
      (indexKey workload)).selects .workloadPlan)

theorem mem_listedPlans {store : Store} (member : plan ∈ (store.table .workloadPlan).rows)
    (names : plan.spec.workloadRef = workload.key) : plan ∈ listedPlans workload store := by
  refine List.mem_filter.mpr ⟨member, ?_⟩
  apply decide_eq_true
  simp only [indexValue, names]
  rfl

/-- The list of the plans of a Workload shows the plan that was just upserted,
and it is the only one if there is only one. -/
theorem getPlan_current (kept : PlanLog state) (planned : Planned workload state) :
    Safe (generationContract .pipeline)
      (fun got history _ => ∀ plan, got = .ok plan → plan.status.phase = .ready →
        SeenCurrent plan workload.metadata.generation history)
      (getPlan workload) history state := by
  intro before moved reply after served admitted
  refine ⟨((isNeutral_of_isRead _ rfl).keeps history served).1, ?_⟩
  have listed : reply = .ok (listedPlans workload before.store) := (congrArg Prod.fst served.1).symm
  obtain ⟨spec, stored, names, generations⟩ := planned.keeps (moved.2 rfl)
  obtain ⟨current, found, rfl⟩ := Option.map_eq_some_iff.mp stored
  obtain ⟨member, _⟩ := Store.find?_eq_some.mp found
  have shown := mem_listedPlans member names
  subst listed
  intro later _ plan only ready
  unfold onlyPlan at only
  split at only
  next => cases only
  next => cases only
  next single same =>
    cases only
    have all := Except.ok.inj same
    rw [all] at shown
    cases List.mem_singleton.mp shown
    refine ⟨_, .head _, congrArg some all, ?_⟩
    have newest : statusIsNewest current.key before.log = true :=
      admitted current (by simp [Call.listed, Except.toOption, all]) ready
    rw [← generations]
    exact phaseWrittenFor_of_newest (moved.1.invariant kept) member newest
  next => cases only

variable {settings : Settings} {context : PhaseContext}

/-- If the claims count as ready, the plan of the Workload is in place after a
successful `EnsurePlan`. -/
theorem ensurePlan_planned {now : Time} {aggregation : ClaimAggregation} (kept : PlanLog state) :
    Safe (generationContract .pipeline)
      (fun returned _ later => PlanLog later ∧ (returned.2 = .ok () →
        returned.1 = workload ∧ (aggregation.ready = true → Planned workload later)))
      (ensurePlan settings now workload claims aggregation) history state := by
  unfold ensurePlan
  split
  next =>
    split
    · exact fun _ moved => ⟨moved.1.invariant kept, nofun⟩
    · apply Safe.bind
      refine (upsertWorkloadPlan_planned kept).mono ?_
      intro upserted history later upserts
      obtain ⟨keptLater, planned⟩ := upserts
      cases upserted with
      | ok _ =>
        intro final moved
        have still := (planned rfl).keeps (moved.2 rfl)
        exact ⟨moved.1.invariant keptLater, fun _ => ⟨rfl, fun _ => still⟩⟩
      | error fault =>
        dsimp only
        split <;> exact fun _ moved => ⟨moved.1.invariant keptLater, nofun⟩
  next notReady =>
    exact fun _ moved => ⟨moved.1.invariant kept,
      fun _ => ⟨rfl, fun ready => absurd ready notReady⟩⟩

/-- What the phases hand on to the status phase: if the claims are reported ready,
a plan in phase Ready is about the generation of the Workload. -/
def PlanIsCurrent (context : PhaseContext) (history : List (EventOn Logged)) : Prop :=
  isConditionTrue context.workload.status.conditions Conditions.claimsReady = true →
    ∀ plan, context.plan = some plan → plan.status.phase = .ready →
      SeenCurrent plan context.workload.metadata.generation history

/-- The claim condition of the Workload in memory is no better than the
aggregation. -/
def ReportsClaims (context : PhaseContext) : Prop :=
  isConditionTrue context.workload.status.conditions
      Conditions.claimsReady = true → context.claimAgg.ready = true

theorem executePlanPhase_current (kept : PlanLog state) (reports : ReportsClaims context) :
    Safe (generationContract .pipeline)
      (fun returned history _ => returned.2.error = none →
        returned.2.skip = false → PlanIsCurrent returned.1 history)
      (executePlanPhase settings context) history state := by
  apply Safe.bind
  refine (ensurePlan_planned kept).mono ?_
  intro returned history later leaves
  obtain ⟨workload, ensured⟩ := returned
  obtain ⟨keptLater, planned⟩ := leaves
  cases ensured with
  | error fault =>
    dsimp only
    split
    · exact fun _ _ _ goesOn => nomatch goesOn
    · exact fun _ _ noError => nomatch noError
  | ok _ =>
    obtain ⟨rfl, inPlace⟩ := planned rfl
    apply Safe.bind
    by_cases ready : context.claimAgg.ready = true
    · refine (getPlan_current keptLater (inPlace ready)).mono ?_
      intro got history _ current _ _ _ _ _ plan found phase
      cases got with
      | error fault => cases found
      | ok only =>
        cases found
        exact current plan rfl phase
    · -- without the claims the condition is not reported
      refine (safe_of_neutral (getPlan_makes isNeutral_of_isRead _) history
        later).mono ?_
      intro got history _ _ _ _ _ _ claims
      exact absurd (reports claims) ready

theorem executeClaimPhase_reports (kept : PlanLog state) :
    Safe (generationContract .pipeline)
      (fun returned _ later => returned.2.error = none →
        PlanLog later ∧ ReportsClaims returned.1)
      (executeClaimPhase settings context) history state := by
  have calls : ClaimCalls IsNeutral :=
    { getClaim := fun _ => isNeutral_of_isRead _ rfl
      createClaim := fun _ _ _ => ⟨.inr nofun, rfl⟩
      updateClaim := fun _ _ _ _ => ⟨.inr nofun, rfl⟩ }
  apply Safe.bind
  refine (safe_of_neutral (ensureClaims_makes calls _ _) history state).mono ?_
  intro ensured history ensuredState moved
  cases ensured with
  | error fault => exact fun _ _ noError => nomatch noError
  | ok _ =>
    apply Safe.bind
    refine (safe_of_neutral (getClaims_makes isNeutral_of_isRead _) history
      ensuredState).mono ?_
    intro listed history listedState further
    cases listed with
    | error fault => exact fun _ _ noError => nomatch noError
    | ok claims =>
      intro later onward _
      refine ⟨onward.1.invariant (further.1.invariant (moved.1.invariant kept)), ?_⟩
      intro claimsReady
      simp only [updateWorkloadStatusFromAggregation,
        isConditionTrue_setCondition_self] at claimsReady
      cases ready : (aggregateStatus claims).ready
      · simp [ready, statusOf] at claimsReady
      · rfl

theorem executeStatusPhase_current (current : PlanIsCurrent context history) :
    Safe (generationContract .pipeline) (fun _ _ _ => True)
      (executeStatusPhase settings context) history state := by
  intro before _ reply after served _
  obtain ⟨answered, log⟩ := logged_of_service served
  obtain ⟨step, specs⟩ := planStep_of_leaves (by exact .inr nofun) answered log
  refine ⟨⟨step, fun _ workload sent ready => ?_, fun _ => specs⟩, ?_⟩
  · cases sent
    obtain ⟨claims, plan, found, phase⟩ := computeFinalStatus_ready ready
    refine ⟨plan, phase, ?_⟩
    have seen := current claims plan found phase
    rw [found]
    exact seen
  · simp only [done_bind]
    cases reply with
    | ok _ => exact fun _ _ => trivial
    | error fault =>
      simp only [pure_eq, done_bind]
      split <;> exact fun _ _ => trivial

/-- A Workload that is being deleted passes through all phases untouched. -/
theorem skipped_safe {phases : List Phase}
    (all : ∀ phase ∈ phases, phase.shouldSkip = skipDuringDeletion)
    (skips : skipDuringDeletion context = true) :
    Safe (generationContract .pipeline) (fun _ _ _ => True)
      (executeNormalPipeline phases context) history state := by
  rw [executeNormalPipeline_skipped fun phase member => by rw [all phase member, skips]]
  exact fun _ _ => trivial

theorem normalPhases_current (kept : PlanLog state) :
    Safe (generationContract .pipeline) (fun _ _ _ => True)
      (executeNormalPipeline (normalPhases settings) context) history state := by
  apply executeNormalPipeline_cons_safe
  · exact skipped_safe (by simp [claimPhase, planPhase, statusPhase])
  · intro _ validated moved _ _
    have keptValidated := moved.1.invariant kept
    apply executeNormalPipeline_cons_safe
    · exact skipped_safe (by simp [planPhase, statusPhase])
    · intro _
      refine (executeClaimPhase_reports keptValidated).mono ?_
      intro claimed history claimedState reports noError _
      obtain ⟨keptClaimed, reported⟩ := reports noError
      apply executeNormalPipeline_cons_safe
      · exact skipped_safe (by simp [statusPhase])
      · intro _
        refine (executePlanPhase_current keptClaimed reported).mono ?_
        intro planned history plannedState current noError goesOn
        apply executeNormalPipeline_cons_safe
        · exact skipped_safe (by simp)
        · intro _
          refine (executeStatusPhase_current (current noError goesOn)).mono ?_
          exact fun _ _ _ _ _ _ _ _ => trivial

theorem deletionCalls_neutral : DeletionCalls IsNeutral where
  reads := isNeutral_of_isRead
  detachClaim _ := ⟨.inr nofun, rfl⟩
  deleteClaim _ := ⟨.inr nofun, rfl⟩
  updateWorkload _ := ⟨.inr nofun, rfl⟩

theorem reconcileWorkload_current (kept : PlanLog state) (key : NamespacedName) :
    Safe (generationContract .pipeline) (fun _ _ _ => True)
      (reconcileWorkload settings key) history state := by
  intro before moved reply after served _
  obtain ⟨promise, step, _⟩ := (isNeutral_of_isRead _ rfl).keeps history served
  refine ⟨promise, ?_⟩
  have keptRead := step.invariant (moved.1.invariant kept)
  simp only [done_bind]
  cases reply with
  | error fault =>
    dsimp only
    split <;> exact fun _ _ => trivial
  | ok workload =>
    unfold executePipeline
    dsimp only
    split
    · exact (safe_of_neutral (executeDeletionPipeline_makes deletionCalls_neutral
        _ _) _ _).mono fun _ _ _ _ => trivial
    · have ensures := ensureFinalizer_makes deletionCalls_neutral.updateWorkload workload
      apply Safe.bind
      refine (safe_of_neutral ensures _ after).mono ?_
      intro ensured history later further
      cases ensured with
      | error fault => exact fun _ _ => trivial
      | ok workload => exact normalPhases_current (further.1.invariant keptRead)

end

/-! ### Every interleaving -/

theorem OtherCall.planStep (moved : OtherCall before after) :
    PlanStep before after ∧ KeepsSpecs before after := by
  obtain ⟨log, answer, request, reply, leaves, answered⟩ := moved
  have plans := apiServer_table_of_leaves leaves answered
  refine ⟨⟨fun kept => kept.of_same plans log, apiServer_evolves _ answered, ?_⟩,
    .of_table plans⟩
  rw [log]

/-- The rely/guarantee proof. -/
def generationVerified : Verified (generationRules ReadsFresh) NoPlans where
  invariant := PlanLog
  rely actor := (generationContract actor).rely
  rely_refl actor := (generationContract actor).rely_refl
  rely_trans actor := (generationContract actor).rely_trans
  guarantee actor := (generationContract actor).guarantee
  invariant_initial empty := .of_noPlans empty
  invariant_environment kept moved := (OtherCall.planStep moved).1.invariant kept
  invariant_exchange kept promise := promise.1.invariant kept
  rely_environment _ moved := ⟨(OtherCall.planStep moved).1, fun _ => (OtherCall.planStep moved).2⟩
  rely_exchange different _ promise :=
    ⟨promise.1, fun own => promise.2.2 fun other => different (own.trans other.symm)⟩
  safe {actor program state} starts kept := by
    cases actor with
    | pipeline =>
      obtain ⟨settings, key, rfl⟩ := starts
      exact (reconcileWorkload_current kept key).discard
    | runtime worker =>
      obtain ⟨settings, key, rfl⟩ := starts
      exact (reconcilePlan_safe settings key).discard

/-- Ready is about the current generation: in every interleaving in which the
pipeline lists a plan as Ready only while its status is newer than its spec, a
Workload status with Ready=True follows a plan in phase Ready that the runtime
wrote after it had read a spec for the generation of that Workload. -/
theorem ready_written_for_generation {system next : System PlanActor Call GoError Logged}
    {history : List (EventOn Logged)} {event : EventOn Logged} {workload : Workload}
    (reached : Reachable (generationRules ReadsFresh) NoPlans system)
    (moved : System.Step (generationRules ReadsFresh) system
      (.exchange .pipeline history event) next)
    (sent : event.request.sentStatus .workload = some workload)
    (ready : isConditionTrue workload.status.conditions Conditions.ready = true) :
    ∃ plan, plan.status.phase = .ready ∧
      ∃ listing ∈ history,
        listing.request.listed .workloadPlan listing.reply = some [plan] ∧
          PhaseWrittenFor plan workload.metadata.generation listing.before.log :=
  (generationVerified.guarantee_of_reachable reached moved).2.1 rfl workload sent ready

/-! ### A run that obeys the condition, and one that does not -/

/-- Carry out one call and keep the log. -/
def serveLogged (actor : PlanActor) {answer : Type} (request : Call answer) (before : Logged) :
    Except GoError answer × Logged :=
  let reply := (serve request before.store).1
  (reply,
    { store := (serve request before.store).2
      log := (actor.record request reply).toList ++ before.log })

theorem runs_execute_logged (reads : EventOn Logged → Prop) (actor : PlanActor)
    (program : Client Unit) (logged : Logged) :
    program.Runs ((generationRules reads).service actor) logged
      (program.execute (serveLogged actor) [] logged).1
      (program.execute (serveLogged actor) [] logged).2.1
      (program.execute (serveLogged actor) [] logged).2.2 := by
  apply (runs_execute_reliable (serveLogged actor) program logged).mono
  intro answer request before reply after served
  cases served
  cases actor with
  | pipeline => exact ⟨rfl, rfl⟩
  | runtime worker => exact ⟨.inl rfl, rfl⟩

def webApp : NamespacedName := ⟨"default", "web"⟩

/-- A pipeline run of the Workload. -/
def pipelineRun : Client Unit := (reconcileWorkload quietSettings webApp).discard

/-- A runtime run of its plan. -/
def runtimeRun : Client Unit := (reconcilePlan quietRuntime webApp).discard

theorem pipelineRun_starts (reads : EventOn Logged → Prop) :
    (generationRules reads).starts .pipeline pipelineRun :=
  ⟨quietSettings, webApp, rfl⟩

theorem runtimeRun_starts (reads : EventOn Logged → Prop) (worker : Nat) :
    (generationRules reads).starts (.runtime worker) runtimeRun :=
  ⟨quietRuntime, webApp, rfl⟩

/-- The events of an undisturbed run.  Only the kernel evaluates them. -/
@[irreducible] def runEvents (actor : PlanActor) (program : Client Unit) (logged : Logged) :
    List (EventOn Logged) :=
  (program.execute (serveLogged actor) [] logged).1

/-- The cluster after it. -/
@[irreducible] def afterRun (actor : PlanActor) (program : Client Unit) (logged : Logged) :
    Logged :=
  (program.execute (serveLogged actor) [] logged).2.2

theorem reachable_afterRun (actor : PlanActor) {program : Client Unit}
    (reached : Reachable (generationRules reads) NoPlans
      { state := logged, thread := fun _ => none })
    (starts : (generationRules reads).starts actor program)
    (admitted : Admitted (generationRules reads) actor [] (runEvents actor program logged)) :
    Reachable (generationRules reads) NoPlans
      { state := afterRun actor program logged, thread := fun _ => none } := by
  unfold afterRun
  unfold runEvents at admitted
  exact reached.run actor rfl starts
    (runs_execute_logged reads actor program logged) admitted

/-- A Workload whose only container carries a version in its image and in a
variable. -/
def webWorkload (version : String) : Workload where
  metadata :=
    { name := "web"
      ns := "default"
      uid := "u1"
      generation := 1
      finalizers := [workloadFinalizer] }
  spec :=
    { containers := .ofList
        [("main",
          { image := "web:" ++ version
            variables_ := some (.ofList [("VERSION", version)]) })] }
  status := default

/-- The Workload and a Deployment whose only replica is ready. -/
def webCluster : Logged where
  store := (Store.empty.insert .workload (webWorkload "1")).insert .deployment
    { metadata := { name := "web", ns := "default" }
      spec := default
      status := { replicas := 1, readyReplicas := 1 } }
  log := []

/-- The user changes the version. -/
def versionEdit : Call Workload := .patch .workload (webWorkload "1") (webWorkload "2")

@[irreducible] def afterEdit (logged : Logged) : Logged :=
  { logged with store := (serve versionEdit logged.store).2 }

theorem reachable_afterEdit (reached : Reachable (generationRules reads) NoPlans
      { state := logged, thread := fun _ => none }) :
    Reachable (generationRules reads) NoPlans
      { state := afterEdit logged, thread := fun _ => none } := by
  apply reached.step (.environment _)
  unfold afterEdit
  exact ⟨rfl, _, versionEdit, (serve versionEdit logged.store).1, .inr nofun, .inl rfl⟩

/-- An event that stores a Workload status with Ready=True for a generation. -/
def storesReady (generation : Nat) (event : EventOn Logged) : Bool :=
  event.reply.toOption.isSome &&
    (event.request.sentStatus .workload).any fun workload =>
      workload.metadata.generation = generation &&
        isConditionTrue workload.status.conditions Conditions.ready

theorem exists_of_storesReady {event : EventOn Logged}
    (stores : storesReady generation event = true) :
    event.reply.toOption.isSome = true ∧ ∃ workload,
      event.request.sentStatus .workload = some workload ∧
      workload.metadata.generation = generation ∧
      isConditionTrue workload.status.conditions Conditions.ready = true := by
  simp only [storesReady, Bool.and_eq_true, Option.any_eq_true,
    decide_eq_true_eq] at stores
  obtain ⟨answered, workload, sent, same, ready⟩ := stores
  exact ⟨answered, workload, sent, same, ready⟩

/-- A pipeline run that stores Ready does so in some step. -/
theorem exists_ready_step (reached : Reachable (generationRules reads) NoPlans
      { state := logged, thread := fun _ => none })
    (admitted : Admitted (generationRules reads) .pipeline []
      (runEvents .pipeline pipelineRun logged))
    (stores : (runEvents .pipeline pipelineRun logged).any (storesReady generation) = true) :
    ∃ history system next event,
      history ⊆ runEvents .pipeline pipelineRun logged ∧
      Reachable (generationRules reads) NoPlans system ∧
      System.Step (generationRules reads) system (.exchange .pipeline history event)
        next ∧
      storesReady generation event = true := by
  unfold runEvents at admitted stores ⊢
  obtain ⟨event, member, ready⟩ := List.any_eq_true.mp stores
  obtain ⟨history, system, next, past, there, step⟩ :=
    reached.exists_exchange_of_mem .pipeline rfl (pipelineRun_starts reads)
      (runs_execute_logged reads .pipeline pipelineRun logged) admitted member
  exact ⟨history, system, next, event, past, there, step, ready⟩

/-- The cluster once the pipeline has emitted the plan and the runtime has
reported it Ready. -/
def readyCluster : Logged :=
  afterRun (.runtime 0) runtimeRun (afterRun .pipeline pipelineRun webCluster)

theorem noPlans_webCluster : NoPlans webCluster := by
  refine ⟨?_, rfl⟩
  decide +kernel

theorem reachable_readyCluster (admitted : Admitted (generationRules reads) .pipeline []
      (runEvents .pipeline pipelineRun webCluster)) :
    Reachable (generationRules reads) NoPlans
      { state := readyCluster, thread := fun _ => none } := by
  have emitted := reachable_afterRun .pipeline (.initial noPlans_webCluster)
    (pipelineRun_starts reads) admitted
  exact reachable_afterRun (.runtime 0) emitted (runtimeRun_starts reads 0)
    (.of_forall (fun _ _ => trivial) _ _)

instance (history : List (EventOn Logged)) (event : EventOn Logged) :
    Decidable ((generationRules ReadsFresh).admits .pipeline history event) :=
  inferInstanceAs (Decidable (ReadsFresh event))

/-- Pipeline, runtime, pipeline: the second pipeline run stores Ready for
generation 1. -/
theorem ready_written_for_first_generation :
    ∃ history event workload, ∃ system next : System PlanActor Call GoError Logged,
      Reachable (generationRules ReadsFresh) NoPlans system ∧
      System.Step (generationRules ReadsFresh) system (.exchange .pipeline history event) next ∧
      event.request.sentStatus .workload = some workload ∧
      workload.metadata.generation = 1 ∧
      isConditionTrue workload.status.conditions Conditions.ready = true ∧
      ∃ plan, plan.status.phase = .ready ∧
        ∃ listing ∈ history,
          listing.request.listed .workloadPlan listing.reply = some [plan] ∧
            PhaseWrittenFor plan workload.metadata.generation listing.before.log := by
  have first : Admitted (generationRules ReadsFresh) .pipeline []
      (runEvents .pipeline pipelineRun webCluster) := by
    decide +kernel
  have second : Admitted (generationRules ReadsFresh) .pipeline []
      (runEvents .pipeline pipelineRun readyCluster) := by
    decide +kernel
  have stores : (runEvents .pipeline pipelineRun readyCluster).any (storesReady 1) = true := by
    decide +kernel
  obtain ⟨history, system, next, event, _, there, step, stores⟩ :=
    exists_ready_step (reachable_readyCluster first) second stores
  obtain ⟨_, workload, sent, generation, ready⟩ := exists_of_storesReady stores
  exact ⟨history, event, workload, system, next, there, step, sent, generation,
    ready, ready_written_for_generation there step sent ready⟩

/-- A read of a plan whose spec is for a generation. -/
def PlanRecord.isReadFor (generation : Nat) : PlanRecord → Bool
  | .read plan => plan.spec.observedWorkloadGeneration = generation
  | _ => false

theorem PhaseWrittenFor.exists_read {plan : WorkloadPlan} {log : List PlanRecord}
    (written : PhaseWrittenFor plan generation log) :
    log.any (PlanRecord.isReadFor generation) = true := by
  obtain ⟨later, sent, earlier, split, _, _, _, seen, read, _, same⟩ := written
  refine List.any_eq_true.mpr ⟨.read seen, ?_, decide_eq_true same⟩
  rw [split]
  exact List.mem_append_right _ (.tail _ read)

/-- If the user edits the Workload after that, the next pipeline run writes the
new spec of the plan, reads back the phase of the old one and stores Ready for
generation 2, which the runtime has never seen. -/
theorem ready_for_unread_generation :
    ∃ history event workload, ∃ system next : System PlanActor Call GoError Logged,
      Reachable (generationRules fun _ => True) NoPlans system ∧
      System.Step (generationRules fun _ => True) system (.exchange .pipeline history event) next ∧
      event.reply.toOption.isSome = true ∧
      event.request.sentStatus .workload = some workload ∧
      workload.metadata.generation = 2 ∧
      isConditionTrue workload.status.conditions Conditions.ready = true ∧
      ¬ ∃ plan, plan.status.phase = .ready ∧
        ∃ listing ∈ history,
          listing.request.listed .workloadPlan listing.reply = some [plan] ∧
            PhaseWrittenFor plan workload.metadata.generation listing.before.log := by
  have all : ∀ events, Admitted (generationRules fun _ => True) .pipeline [] events :=
    .of_forall (fun _ _ => trivial) _
  have reached := reachable_afterEdit (reachable_readyCluster (all _))
  have stores : (runEvents .pipeline pipelineRun
      (afterEdit readyCluster)).any (storesReady 2) = true := by decide +kernel
  have unread : (runEvents .pipeline pipelineRun (afterEdit readyCluster)).any (fun event =>
        event.before.log.any (PlanRecord.isReadFor 2)) = false := by decide +kernel
  obtain ⟨history, system, next, event, past, there, step, ready⟩ :=
    exists_ready_step reached (all _) stores
  obtain ⟨answered, workload, sent, generation, true_⟩ := exists_of_storesReady ready
  refine ⟨history, event, workload, system, next, there, step, answered, sent,
    generation, true_, ?_⟩
  intro current
  obtain ⟨plan, _, listing, member, _, written⟩ := current
  rw [generation] at written
  have read := List.any_eq_false.mp unread listing (past member)
  exact read written.exists_read

end ScoreOrchestrator.Runtime
