/-
Module: Proofs.PlanEmission
Purpose: No plan leaves the orchestrator with a placeholder in its resolved
  values, and an upsert that fails leaves the stored plans alone.
-/
import ScoreOrchestrator.Proofs.Footprints

namespace ScoreOrchestrator.Reconcile

open Foundation Program
open Projection (ContainsPlaceholder)

/-- The resolved values of a plan are a document without placeholders. -/
def Resolved (codec : JsonCodec) (spec : WorkloadPlanSpec) : Prop :=
  ∃ resolvedValues document, spec.resolvedValues = some resolvedValues ∧
    codec.unmarshal resolvedValues.raw = .ok document ∧
    ∀ text, document.HasString text → ¬ ContainsPlaceholder text

/-- The terms of plan emission: nobody else writes plans meanwhile, and every
plan written is resolved. -/
def emissionContract (codec : JsonCodec) : Contract Call GoError Store where
  service := apiServer
  rely before after := after.table .workloadPlan = before.table .workloadPlan
  rely_refl _ := rfl
  rely_trans first second := second.trans first
  admits _ _ := True
  guarantee _ event := ∀ plan, event.request.written .workloadPlan = some plan →
    Resolved codec plan.spec

/-- What an upsert owes when it returns: after an error the plans are those of
the start. -/
def KeepsPlansOnError (start : Store) (result : Except GoError Unit) (_ : List ApiEvent)
    (state : Store) : Prop :=
  ∀ fault, result = .error fault →
    state.table .workloadPlan = start.table .workloadPlan

section

variable {order : IterOrder} {codec : JsonCodec} {workload : Workload}
  {claims : List ResourceClaim} {selectedBackend : SelectedBackend}
  {history : List ApiEvent} {start state : Store}

/-! ### Resolution only reads -/

/-- A read keeps every term of the contract. -/
theorem emissionContract_read (codec : JsonCodec) {answer : Type} (request : Call answer)
    (reads : request.isRead) (history : List ApiEvent) (before : Store)
    (reply : Except GoError answer) (after : Store)
    (served : apiServer request before reply after) :
    (emissionContract codec).guarantee history { request, reply, before, after } ∧
      (emissionContract codec).rely before after := by
  refine ⟨?_, by rw [apiServer_of_isRead reads served]; rfl⟩
  intro plan wrote
  cases request <;> simp [Call.isRead, Call.written] at reads wrote

/-- Resolution leaves the plans alone, and its values come from the encoder. -/
theorem resolveAllPlaceholders_safe :
    Safe (emissionContract codec)
      (fun resolved _ later =>
        later.table .workloadPlan = state.table .workloadPlan ∧
          ∀ resolvedValues, resolved = .ok resolvedValues →
            ∃ document, codec.marshal document = .ok resolvedValues.raw)
      (resolveAllPlaceholders order codec workload claims) history state := by
  apply Safe.bind
  refine (Safe.of_makes
    (buildResolvedOutputsMap_makes (fun _ _ => rfl) claims .empty)
    fun _ request reads history before reply after served _ =>
      emissionContract_read codec request reads history before reply after
        served).mono ?_
  intro outputs history middle same
  split
  · exact fun later moved => ⟨moved.trans same, by simp⟩
  next document _ =>
    split
    · exact fun later moved => ⟨moved.trans same, by simp⟩
    next raw wrote =>
      refine fun later moved => ⟨moved.trans same, ?_⟩
      rintro _ ⟨⟩
      exact ⟨document, wrote⟩

/-! ### The gate -/

theorem checkResolved_ok {resolvedValues : RawExtension}
    (passed : checkResolved codec resolvedValues = .ok ()) :
    (Projection.hasUnresolvedPlaceholders codec resolvedValues.raw).1 = false := by
  unfold checkResolved at passed
  split at passed <;> simp_all

/-- What passes the gate is a resolved plan. -/
theorem resolved_desiredPlanSpec {resolvedValues : RawExtension} {document : Json}
    (wrote : codec.marshal document = .ok resolvedValues.raw)
    (passed : checkResolved codec resolvedValues = .ok ()) :
    Resolved codec (desiredPlanSpec workload claims selectedBackend resolvedValues) := by
  have clean := Projection.scan_of_hasUnresolvedPlaceholders wrote
    (checkResolved_ok passed)
  exact ⟨resolvedValues, document, rfl, codec.unmarshal_marshal wrote,
    fun _ inside => Projection.not_containsPlaceholder_of_scan clean inside⟩

/-! ### The three write paths -/

theorem updatePlan_safe {plan : WorkloadPlan} {desiredSpec : WorkloadPlanSpec} {context : String}
    (resolved : Resolved codec desiredSpec)
    (same : state.table .workloadPlan = start.table .workloadPlan) :
    Safe (emissionContract codec) (KeepsPlansOnError start)
      (updatePlan plan desiredSpec context) history state := by
  unfold updatePlan
  split
  · exact fun later moved fault isError => nomatch isError
  · intro before moved reply after served _
    refine ⟨?_, ?_⟩
    · rintro _ ⟨⟩
      exact resolved
    · cases reply with
      | ok _ => exact fun later _ fault isError => nomatch isError
      | error fault =>
        intro later onward _ _
        rw [apiServer_of_error served] at onward
        exact onward.trans (moved.trans same)

theorem createPlan_safe {desiredSpec : WorkloadPlanSpec} (resolved : Resolved codec desiredSpec)
    (same : state.table .workloadPlan = start.table .workloadPlan) :
    Safe (emissionContract codec) (KeepsPlansOnError start)
      (createPlan workload desiredSpec) history state := by
  intro before moved reply after served _
  refine ⟨?_, ?_⟩
  · rintro _ ⟨⟩
    exact resolved
  · cases reply with
    | ok _ => exact fun later _ fault isError => nomatch isError
    | error fault =>
      have unchanged : after.table .workloadPlan = start.table .workloadPlan := by
        rw [apiServer_of_error served]
        exact moved.trans same
      simp only [done_bind]
      split
      · -- the plan exists after all: read it, then update
        intro again movedAgain existing final servedAgain _
        have reread := emissionContract_read codec _ rfl history _ _ _ servedAgain
        refine ⟨reread.1, ?_⟩
        have still := reread.2.trans (movedAgain.trans unchanged)
        cases existing with
        | error _ => exact fun later onward _ _ => onward.trans still
        | ok existingPlan => exact updatePlan_safe resolved still
      · exact fun later onward _ _ => onward.trans unchanged

theorem emit_safe {write : WorkloadPlanSpec → Client (Except GoError Unit)}
    (writes : ∀ {desiredSpec history state}, Resolved codec desiredSpec →
      state.table .workloadPlan = start.table .workloadPlan →
      Safe (emissionContract codec) (KeepsPlansOnError start)
        (write desiredSpec) history state)
    (same : state.table .workloadPlan = start.table .workloadPlan) :
    Safe (emissionContract codec) (KeepsPlansOnError start)
      (upsertWorkloadPlan.emit order codec workload claims selectedBackend write)
      history state := by
  apply Safe.bind
  refine resolveAllPlaceholders_safe.mono ?_
  rintro resolved history middle ⟨unmoved, encoded⟩
  have unchanged := unmoved.trans same
  cases resolved with
  | error fault => exact fun later onward _ _ => onward.trans unchanged
  | ok resolvedValues =>
    dsimp only
    split
    · exact fun later onward _ _ => onward.trans unchanged
    next passed =>
      obtain ⟨document, wrote⟩ := encoded resolvedValues rfl
      exact writes (resolved_desiredPlanSpec wrote passed) unchanged

theorem upsertWorkloadPlan_safe (store : Store) :
    Safe (emissionContract codec) (KeepsPlansOnError store)
      (upsertWorkloadPlan order codec workload claims selectedBackend) history store := by
  unfold upsertWorkloadPlan
  split
  · exact fun later moved _ _ => moved
  next named =>
    rw [if_neg named]
    intro before moved reply after served _
    have read := emissionContract_read codec _ rfl history _ _ _ served
    have unchanged := read.2.trans moved
    refine ⟨read.1, ?_⟩
    cases reply with
    | ok plan => exact emit_safe updatePlan_safe unchanged
    | error getErr =>
      simp only [done_bind]
      split
      · exact emit_safe createPlan_safe unchanged
      · exact fun later onward _ _ => onward.trans unchanged

end

/-- Plan emission gate: whatever calls fail, every plan that is created or
updated has a resolved values document without placeholders, and an upsert that
returns an error leaves the stored plans as they were. -/
theorem upsertWorkloadPlan_writes_resolved_plans (order : IterOrder) (codec : JsonCodec)
    (workload : Workload) (claims : List ResourceClaim) (selectedBackend : SelectedBackend)
    {store final : Store} {events : List ApiEvent} {outcome : Outcome (Except GoError Unit)}
    (run : (upsertWorkloadPlan order codec workload claims selectedBackend).Runs
      apiServer store events outcome final) :
    (∀ event ∈ events, ∀ plan, event.request.written .workloadPlan = some plan →
      Resolved codec plan.spec) ∧
    (∀ fault, outcome = .returned (.error fault) →
      ∀ key, final.find? .workloadPlan key = store.find? .workloadPlan key) := by
  have safe : Safe (emissionContract codec) (KeepsPlansOnError store)
      (upsertWorkloadPlan order codec workload claims selectedBackend) [] store :=
    upsertWorkloadPlan_safe store
  have ⟨kept, returned⟩ := safe.sound run (.of_forall (fun _ _ => trivial) _ _)
  refine ⟨kept.of_mem fun _ _ promise => promise, ?_⟩
  intro fault failed key
  simp only [Store.find?, returned _ failed fault rfl]

/-- A Workload at its second generation, with one variable. -/
def webWorkload : Workload where
  metadata := { name := "web", ns := "default", uid := "u1", generation := 2 }
  spec :=
    { containers := .ofList
        [("main",
          { image := "nginx"
            variables_ := some (.ofList [("MODE", "fast")]) })] }
  status := default

/-- A cluster that holds the plan of the Workload's first generation. -/
def outdatedPlanStore : Store :=
  Store.empty.insert .workloadPlan
    (newPlan webWorkload
      { workloadRef := ⟨"default", "web"⟩
        observedWorkloadGeneration := 1
        runtimeClass := "kubernetes"
        template := none
        resolvedValues := none
        claims := [] })

/-- An upsert whose first read fails as if there were no plan, so that it goes
through the create conflict to the update. -/
def conflictingUpsert : List ApiEvent × Outcome (Except GoError Unit) × Store :=
  (upsertWorkloadPlan .entryOrder .text webWorkload []
    { runtimeClass := "kubernetes", template := default }).execute serve
      [some { text := "not found", reason := .notFound }] outdatedPlanStore

theorem conflictingUpsert_writes_resolved_plans :
    conflictingUpsert.1.map (fun event => (event.request.written .workloadPlan).isSome) =
      [false, true, false, true] ∧
    conflictingUpsert.2.1 = .returned (.ok ()) ∧
    ∀ event ∈ conflictingUpsert.1, ∀ plan,
      event.request.written .workloadPlan = some plan → Resolved .text plan.spec :=
  ⟨by decide +kernel, by decide +kernel,
    (upsertWorkloadPlan_writes_resolved_plans .entryOrder .text webWorkload []
      { runtimeClass := "kubernetes", template := default }
      (runs_execute serve _ _ outdatedPlanStore)).1⟩

end ScoreOrchestrator.Reconcile
