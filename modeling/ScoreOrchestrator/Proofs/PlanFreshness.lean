/-
Module: Proofs.PlanFreshness
Purpose: When the plan that UpsertWorkloadPlan leaves in the store is the one it
  computed, and a changed template that it overlooks.
-/
import ScoreOrchestrator.Proofs.PlanEmission

namespace ScoreOrchestrator.Reconcile

open Foundation Program

/-- The key of a Workload's plan. -/
def planKey (workload : Workload) : NamespacedName where
  ns := workload.metadata.ns
  name := workload.metadata.name

/-! ### The write paths -/

/-- The two ways in which the write of a desired spec succeeds: the plan found under
the key counts as equal and stays, or the spec is stored. -/
inductive Emitted (key : NamespacedName) (desiredSpec : WorkloadPlanSpec)
    (before after : Store) : Prop where
  | kept (plan : WorkloadPlan)
      (found : before.find? .workloadPlan key = some plan)
      (equal : workloadPlanSpecEqual plan.spec desiredSpec = true)
      (unchanged : after = before)
  | written (plan : WorkloadPlan)
      (differs : ∀ old, before.find? .workloadPlan key = some old →
        workloadPlanSpecEqual old.spec desiredSpec = false)
      (found : after.find? .workloadPlan key = some plan)
      (spec : plan.spec = desiredSpec)

section

variable {desiredSpec : WorkloadPlanSpec} {before after : Store}
  {events : List ApiEvent}

theorem updatePlan_emitted {plan : WorkloadPlan} {context : String}
    (found : before.find? .workloadPlan plan.key = some plan)
    (run : (updatePlan plan desiredSpec context).Runs apiServer before events
      (.returned (.ok ())) after) : Emitted plan.key desiredSpec before after := by
  unfold updatePlan at run
  split at run
  next equal =>
    cases run
    exact .kept plan found equal rfl
  next differs =>
    obtain ⟨reply, _, _, rfl, served, rest⟩ := run.of_call
    cases reply with
    | error fault => cases rest
    | ok updated =>
      cases rest
      obtain ⟨next, finds, spec⟩ := apiServer_update_spec found served
      refine .written next ?_ finds spec
      intro old foundOld
      rw [found] at foundOld
      cases foundOld
      exact Bool.eq_false_iff.mpr differs

theorem createPlan_emitted {workload : Workload}
    (run : (createPlan workload desiredSpec).Runs apiServer before events
      (.returned (.ok ())) after) : Emitted (planKey workload) desiredSpec before after := by
  obtain ⟨reply, _, _, rfl, served, rest⟩ := run.of_call
  cases reply with
  | ok created =>
    cases rest
    obtain ⟨absent, written⟩ := apiServer_create_ok served
    have held : ((newPlan workload desiredSpec).created before.revision).isReleased = false := rfl
    have stored := before.find?_commit_self .workloadPlan held
    rw [← congrArg Prod.snd written] at stored
    refine .written _ ?_ stored rfl
    intro old found
    have sentKey : (newPlan workload desiredSpec).key = planKey workload := rfl
    rw [sentKey, found] at absent
    cases absent
  | error fault =>
    -- a conflict sends the run through a second read
    obtain rfl := apiServer_of_error served
    simp only [done_bind] at rest
    split at rest
    · cases rest with
      | @call _ _ _ _ _ _ existing _ _ again remainder =>
        cases existing with
        | error getErr => cases remainder
        | ok plan =>
          obtain ⟨found, rfl⟩ := apiServer_get_ok again
          have named : plan.key = planKey workload := Store.key_of_find? found
          have sentKey : (newPlan workload desiredSpec).key =
              planKey workload := rfl
          rw [sentKey, ← named] at found
          rw [← named]
          exact updatePlan_emitted found remainder
    · cases rest

end

/-! ### The whole upsert -/

section

variable (order : IterOrder) (codec : JsonCodec) (workload : Workload)
  (claims : List ResourceClaim)

/-- The values that a run resolved: after the read of the plan comes a run of the
resolution that returned them. -/
def ComputedIn (store : Store) (events : List ApiEvent) (resolvedValues : RawExtension) : Prop :=
  ∃ read early late, events = read :: early ++ late ∧
    (resolveAllPlaceholders order codec workload claims).Runs apiServer store
      early (.returned (.ok resolvedValues)) store

variable {order codec workload claims} {selectedBackend : SelectedBackend}
  {store final : Store} {events : List ApiEvent}

/-- A run of the resolution leaves the store alone. -/
theorem resolveAllPlaceholders_store {middle : Store}
    {outcome : Outcome (Except GoError RawExtension)}
    (run : (resolveAllPlaceholders order codec workload claims).Runs apiServer
      store events outcome middle) : middle = store := by
  refine run.of_makes (fun before after => after = before) ?_ ?_ ?_
    (resolveAllPlaceholders_reads order codec workload claims)
  · exact fun _ => rfl
  · exact fun first second => second.trans first
  · exact fun _ _ reads _ _ _ served => apiServer_of_isRead reads served

/-- An emission that succeeds resolves the values and writes the spec with them. -/
theorem emit_cases {write : WorkloadPlanSpec → Client (Except GoError Unit)}
    (run : (upsertWorkloadPlan.emit order codec workload claims selectedBackend write).Runs
      apiServer store events (.returned (.ok ())) final) :
    ∃ resolvedValues early late, events = early ++ late ∧
      (resolveAllPlaceholders order codec workload claims).Runs apiServer store
        early (.returned (.ok resolvedValues)) store ∧
      (write (desiredPlanSpec workload claims selectedBackend resolvedValues)).Runs apiServer store
        late (.returned (.ok ())) final := by
  obtain ⟨resolved, early, late, middle, split, head, tail⟩ := run.exists_of_bind
  have unchanged := resolveAllPlaceholders_store head
  subst unchanged
  cases resolved with
  | error fault => cases tail
  | ok resolvedValues =>
    dsimp only at tail
    split at tail
    · cases tail
    · exact ⟨resolvedValues, early, late, split, head, tail⟩

/-- An upsert that succeeds emits the spec with the values it resolved. -/
theorem upsertWorkloadPlan_emitted (run : (upsertWorkloadPlan order codec workload claims
      selectedBackend).Runs apiServer store events (.returned (.ok ())) final) :
    ∃ resolvedValues,
      ComputedIn order codec workload claims store events resolvedValues ∧
      Emitted (planKey workload)
        (desiredPlanSpec workload claims selectedBackend resolvedValues) store
        final := by
  unfold upsertWorkloadPlan at run
  split at run
  · cases run
  next named =>
    rw [if_neg named] at run
    obtain ⟨reply, _, _, rfl, served, rest⟩ := run.of_call
    simp only [done_bind] at rest
    cases reply with
    | error getErr =>
      obtain rfl := apiServer_of_error served
      dsimp only at rest
      split at rest
      · obtain ⟨resolvedValues, early, late, rfl, resolves, writes⟩ := emit_cases rest
        exact ⟨resolvedValues, ⟨_, early, late, rfl, resolves⟩,
          createPlan_emitted writes⟩
      · cases rest
    | ok plan =>
      obtain ⟨found, rfl⟩ := apiServer_get_ok served
      obtain ⟨resolvedValues, early, late, rfl, resolves, writes⟩ := emit_cases rest
      have named : plan.key = planKey workload := Store.key_of_find? found
      refine ⟨resolvedValues, ⟨_, early, late, rfl, resolves⟩, ?_⟩
      rw [← named]
      apply updatePlan_emitted _ writes
      rw [named]
      exact found

/-- Either way the stored plan is for the desired runtime. -/
theorem Emitted.runtimeClass {key : NamespacedName} {desiredSpec : WorkloadPlanSpec}
    {before after : Store} (emitted : Emitted key desiredSpec before after) :
    ∃ plan, after.find? .workloadPlan key = some plan ∧
      plan.spec.runtimeClass = desiredSpec.runtimeClass := by
  cases emitted with
  | kept plan found equal unchanged =>
    subst unchanged
    refine ⟨plan, found, ?_⟩
    simp only [workloadPlanSpecEqual, Bool.and_eq_true, decide_eq_true_eq] at equal
    exact equal.1.2
  | written plan _ found spec => exact ⟨plan, found, by rw [spec]⟩

/-- A success leaves the desired spec exactly if the plan found before is no equal
one that differs. -/
theorem Emitted.stored_iff {key : NamespacedName} {desiredSpec : WorkloadPlanSpec}
    {before after : Store} (emitted : Emitted key desiredSpec before after) :
    (∃ plan, after.find? .workloadPlan key = some plan ∧ plan.spec = desiredSpec) ↔
      ∀ plan, before.find? .workloadPlan key = some plan →
        workloadPlanSpecEqual plan.spec desiredSpec = true → plan.spec = desiredSpec := by
  cases emitted with
  | kept plan found equal unchanged =>
    subst unchanged
    constructor
    · intro ⟨stored, foundStored, spec⟩ other foundOther _
      rw [foundStored] at foundOther
      cases foundOther
      exact spec
    · intro same
      exact ⟨plan, found, same plan found equal⟩
  | written plan differs found spec =>
    constructor
    · intro _ old foundOld equal
      rw [differs old foundOld] at equal
      cases equal
    · intro _
      exact ⟨plan, found, spec⟩

/-- The stored plan is the computed one exactly if the plan of before, where it agrees
with the computed spec in its reference, generation, runtime class and number of
claims, agrees with it in everything. -/
theorem storedPlan_iff (run : (upsertWorkloadPlan order codec workload claims selectedBackend).Runs
      apiServer store events (.returned (.ok ())) final) :
    ∃ resolvedValues,
      ComputedIn order codec workload claims store events resolvedValues ∧
      let desiredSpec := desiredPlanSpec workload claims selectedBackend resolvedValues
      ((∃ plan, final.find? .workloadPlan (planKey workload) = some plan ∧
          plan.spec = desiredSpec) ↔
        ∀ plan, store.find? .workloadPlan (planKey workload) = some plan →
          workloadPlanSpecEqual plan.spec desiredSpec = true →
          plan.spec = desiredSpec) := by
  obtain ⟨resolvedValues, computed, emitted⟩ := upsertWorkloadPlan_emitted run
  exact ⟨resolvedValues, computed, emitted.stored_iff⟩

end

/-! ### Runs -/

/-- A backend that renders a Workload with the given chart. -/
def chartBackend (ref : String) : SelectedBackend where
  runtimeClass := "kubernetes"
  template := { kind := "helm", ref }

/-- An upsert for the Workload web with a chart. -/
def chartUpsert (ref : String) : Client (Except GoError Unit) :=
  upsertWorkloadPlan .entryOrder .text webWorkload [] (chartBackend ref)

@[irreducible] def afterUpsert (ref : String) (store : Store) : Store :=
  ((chartUpsert ref).execute serve [] store).2.2

/-- The Workload after one more edit. -/
def editedWorkload : Workload :=
  { webWorkload with
    metadata := { webWorkload.metadata with generation := webWorkload.metadata.generation + 1 } }

/-- After an edit the upsert replaces the plan of the version before. -/
theorem storedPlan_renewed :
    ∃ events final resolvedValues plan,
      (upsertWorkloadPlan .entryOrder .text editedWorkload [] (chartBackend "web:2")).Runs apiServer
        (afterUpsert "web:1" .empty) events (.returned (.ok ())) final ∧
      final.find? .workloadPlan (planKey editedWorkload) = some plan ∧
      plan.spec = desiredPlanSpec editedWorkload [] (chartBackend "web:2")
        resolvedValues := by
  have returned : ((upsertWorkloadPlan .entryOrder .text editedWorkload []
      (chartBackend "web:2")).execute serve [] (afterUpsert "web:1" .empty)).2.1 =
        .returned (.ok ()) := by decide +kernel
  have older : ((afterUpsert "web:1" .empty).find? .workloadPlan (planKey editedWorkload)).map
      (fun plan => plan.spec.observedWorkloadGeneration) =
        some webWorkload.metadata.generation := by decide +kernel
  have run := runs_execute serve
    (upsertWorkloadPlan .entryOrder .text editedWorkload [] (chartBackend "web:2")) []
    (afterUpsert "web:1" .empty)
  rw [returned] at run
  obtain ⟨resolvedValues, _, stored⟩ := storedPlan_iff run
  have replaced := stored.mpr fun plan found equal => by
    rw [found] at older
    have generation : plan.spec.observedWorkloadGeneration = webWorkload.metadata.generation :=
      Option.some.inj older
    simp [workloadPlanSpecEqual, desiredPlanSpec, generation, editedWorkload] at equal
  obtain ⟨plan, found, spec⟩ := replaced
  exact ⟨_, _, resolvedValues, plan, run, found, spec⟩

/-- When only the backend's chart has changed since, the upsert succeeds and the plan
keeps the old one. -/
theorem storedPlan_keeps_template :
    ∃ events final,
      (chartUpsert "web:2").Runs apiServer (afterUpsert "web:1" .empty) events
        (.returned (.ok ())) final ∧
      ∀ resolvedValues, ¬ ∃ plan,
        final.find? .workloadPlan (planKey webWorkload) = some plan ∧
        plan.spec = desiredPlanSpec webWorkload [] (chartBackend "web:2")
          resolvedValues := by
  have returned : ((chartUpsert "web:2").execute serve []
      (afterUpsert "web:1" .empty)).2.1 = .returned (.ok ()) := by decide +kernel
  have template : ((afterUpsert "web:2" (afterUpsert "web:1" .empty)).find?
      .workloadPlan (planKey webWorkload)).map (fun plan => plan.spec.template) =
        some (some { kind := "helm", ref := "web:1" }) := by decide +kernel
  have run := runs_execute serve (chartUpsert "web:2") []
    (afterUpsert "web:1" .empty)
  rw [returned] at run
  refine ⟨_, _, run, ?_⟩
  intro resolvedValues ⟨plan, found, spec⟩
  unfold afterUpsert at template
  unfold afterUpsert at found
  rw [found] at template
  simp [spec, desiredPlanSpec, chartBackend] at template

end ScoreOrchestrator.Reconcile
