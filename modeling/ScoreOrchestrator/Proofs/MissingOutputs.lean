/-
Module: Proofs.MissingOutputs
Purpose: When planning dereferences missing outputs: the claims of a ready aggregation
  whose status announces outputs that it does not carry.
-/
import ScoreOrchestrator.Api.ServerLaws
import ScoreOrchestrator.Controller.ClaimManager
import ScoreOrchestrator.Reconcile.Plan

namespace ScoreOrchestrator.Reconcile

open Foundation Program
open Controller (aggregateStatus aggregateStatus_ready isBound)

/-! ### Admissible statuses -/

/-- What the schema asks of a claim's status: one of the four phases, and outputs, if
there are any, with at least one field.  Nothing ties `outputsAvailable` to them. -/
structure Admissible (status : ResourceClaimStatus) : Prop where
  phase : status.phase ∈
    [ResourceClaimPhase.pending, .claiming, .bound, .failed]
  outputs : ∀ outputs, status.outputs = some outputs →
    outputs.secretRef.isSome ∨ outputs.configMapRef.isSome ∨ outputs.uri.isSome ∨
      outputs.image.isSome ∨ outputs.cert.isSome

/-! ### Planning without a crash -/

theorem addSecretOutputs_crashFree (claim : ResourceClaim) (outputs : GoMap String)
    (secretRef : Option LocalObjectReference) :
    (addSecretOutputs claim outputs secretRef).CrashFree := by
  cases secretRef with
  | none => trivial
  | some secretRef =>
    intro reply
    cases reply <;> trivial

theorem claimOutputs_crashFree (claim : ResourceClaim) (published : ResourceClaimOutputs) :
    (claimOutputs claim published).CrashFree :=
  (addSecretOutputs_crashFree claim _ _).bind fun _ => trivial

/-- The loop over the claims does not crash where announced outputs are there. -/
theorem buildResolvedOutputsMap_crashFree {claims : List ResourceClaim}
    (present : ∀ claim ∈ claims, claim.status.outputs.isSome)
    (availableOutputs : AvailableOutputs) :
    (buildResolvedOutputsMap claims availableOutputs).CrashFree := by
  induction claims generalizing availableOutputs with
  | nil => trivial
  | cons claim rest ih =>
    obtain ⟨first, later⟩ := List.forall_mem_cons.mp present
    obtain ⟨published, found⟩ := Option.isSome_iff_exists.mp first
    simp only [buildResolvedOutputsMap, found]
    split
    · exact (claimOutputs_crashFree claim published).bind fun outputs =>
        ih later _
    · exact ih later availableOutputs

theorem updatePlan_crashFree (plan : WorkloadPlan) (desiredSpec : WorkloadPlanSpec)
    (context : String) : (updatePlan plan desiredSpec context).CrashFree := by
  unfold updatePlan
  split
  · trivial
  · intro reply
    cases reply <;> trivial

theorem createPlan_crashFree (workload : Workload) (desiredSpec : WorkloadPlanSpec) :
    (createPlan workload desiredSpec).CrashFree := by
  intro reply
  cases reply with
  | ok _ => trivial
  | error fault =>
    simp only [done_bind]
    split
    · intro existing
      cases existing with
      | error getErr => trivial
      | ok existingPlan => exact updatePlan_crashFree existingPlan desiredSpec _
    · trivial

section

variable (order : IterOrder) (codec : JsonCodec) (workload : Workload)
  {claims : List ResourceClaim} (selectedBackend : SelectedBackend)

theorem emit_crashFree (present : ∀ claim ∈ claims, claim.status.outputs.isSome)
    {write : WorkloadPlanSpec → Client (Except GoError Unit)}
    (writes : ∀ desiredSpec, (write desiredSpec).CrashFree) :
    (upsertWorkloadPlan.emit order codec workload claims selectedBackend write).CrashFree := by
  have resolves : (resolveAllPlaceholders order codec workload claims).CrashFree := by
    refine (buildResolvedOutputsMap_crashFree present .empty).bind fun availableOutputs => ?_
    split
    · trivial
    · split <;> trivial
  refine resolves.bind fun resolved => ?_
  split
  · trivial
  · split
    · trivial
    · exact writes _

theorem upsertWorkloadPlan_crashFree (present : ∀ claim ∈ claims, claim.status.outputs.isSome) :
    (upsertWorkloadPlan order codec workload claims selectedBackend).CrashFree := by
  unfold upsertWorkloadPlan
  split
  · trivial
  next named =>
    rw [if_neg named]
    intro got
    cases got with
    | error getErr =>
      simp only [done_bind]
      split
      · exact emit_crashFree order codec workload selectedBackend present
          (createPlan_crashFree workload)
      · trivial
    | ok plan =>
      exact emit_crashFree order codec workload selectedBackend present fun desiredSpec =>
        updatePlan_crashFree plan desiredSpec _

end

/-! ### The crash -/

/-- Outputs that are announced but missing crash the loop, however the Secrets of the
claims before are found. -/
theorem exists_crash_buildResolvedOutputsMap {claims : List ResourceClaim}
    (announced : ∀ claim ∈ claims, claim.status.outputsAvailable = true)
    (missing : ∃ claim ∈ claims, claim.status.outputs = none) (availableOutputs : AvailableOutputs)
    (store : Store) :
    ∃ events cause final, (buildResolvedOutputsMap claims availableOutputs).Runs healthyServer
      store events (.crashed cause) final := by
  induction claims generalizing availableOutputs store with
  | nil =>
    obtain ⟨_, member, _⟩ := missing
    cases member
  | cons claim rest ih =>
    obtain ⟨available, later⟩ := List.forall_mem_cons.mp announced
    simp only [buildResolvedOutputsMap, available, if_true]
    cases found : claim.status.outputs with
    | none => exact ⟨[], _, store, .crash _ store⟩
    | some published =>
      -- the missing outputs are another claim's
      have further : ∃ claim ∈ rest, claim.status.outputs = none := by
        obtain ⟨other, member, none⟩ := missing
        rcases List.mem_cons.mp member with rfl | among
        · rw [found] at none
          cases none
        · exact ⟨other, among, none⟩
      obtain ⟨early, outputs, middle, head⟩ :=
        (claimOutputs_crashFree claim published).exists_returned serve store
      obtain ⟨late, cause, final, tail⟩ := ih later further
        (availableOutputs.set claim.spec.key outputs) middle
      exact ⟨early ++ late, cause, final, head.bind tail⟩

/-- A Workload with no more than a name. -/
def namedWorkload : Workload where
  metadata := { name := "web", ns := "default" }
  spec := {}
  status := default

/-- Over a list of claims that counts as ready, planning dereferences nothing that is
missing, for whatever Workload and store, exactly if every claim carries outputs. -/
theorem upsertWorkloadPlan_safe_iff {claims : List ResourceClaim}
    (ready : (aggregateStatus claims).ready = true) (order : IterOrder) (codec : JsonCodec)
    (selectedBackend : SelectedBackend) :
    (∀ workload store events outcome final,
      (upsertWorkloadPlan order codec workload claims selectedBackend).Runs apiServer store
        events outcome final → ∀ cause, outcome ≠ .crashed cause) ↔
      ∀ claim ∈ claims, claim.status.outputs.isSome := by
  constructor
  · intro safe
    by_contra some
    have missing : ∃ claim ∈ claims, claim.status.outputs = none := by
      simpa using some
    have announced : ∀ claim ∈ claims, claim.status.outputsAvailable = true := by
      intro claim member
      have bound := aggregateStatus_ready.mp ready claim member
      simp only [isBound, Bool.and_eq_true] at bound
      exact bound.2
    -- a Workload that has no plan yet
    obtain ⟨events, cause, final, crash⟩ := exists_crash_buildResolvedOutputsMap announced
      missing .empty Store.empty
    have run := ((crash.bind_crashed _).bind_crashed _ :
      (upsertWorkloadPlan.emit order codec namedWorkload claims selectedBackend
        (createPlan namedWorkload)).Runs healthyServer Store.empty events (.crashed cause)
          final)
    have whole : (upsertWorkloadPlan order codec namedWorkload claims selectedBackend).Runs
        healthyServer Store.empty _ (.crashed cause) final :=
      .call (serve_get_none (Store.find?_empty .workloadPlan _)) run
    exact safe _ _ _ _ _ (runs_apiServer_of_healthyServer whole) cause rfl
  · intro present workload store events outcome final run
    exact run.not_crashed
      (upsertWorkloadPlan_crashFree order codec workload selectedBackend present)

/-- A Bound claim that announces these outputs. -/
def announcing (outputs : Option ResourceClaimOutputs) : ResourceClaim where
  metadata := { name := "web-db", ns := "default" }
  spec := { workloadRef := ⟨"default", "web"⟩, key := "db", type := "redis" }
  status := { phase := .bound, outputs, outputsAvailable := true }

theorem admissible_announcing_none : Admissible (announcing none).status := ⟨by decide, nofun⟩

/-- With outputs that carry a URI planning is safe. -/
theorem upsertWorkloadPlan_safe_uri :
    (aggregateStatus [announcing (some { uri := some "redis://db" })]).ready = true ∧
      ∀ workload store events outcome final,
        (upsertWorkloadPlan .entryOrder .text workload
          [announcing (some { uri := some "redis://db" })] default).Runs apiServer store events
            outcome final → ∀ cause, outcome ≠ .crashed cause := by
  have ready : (aggregateStatus [announcing (some { uri := some "redis://db" })]).ready = true :=
    rfl
  refine ⟨ready, (upsertWorkloadPlan_safe_iff ready .entryOrder .text default).mpr ?_⟩
  simp [announcing]

/-- A Bound claim may announce outputs and carry none: the schema admits it, aggregation
counts it as ready, and planning dereferences nil. -/
theorem upsertWorkloadPlan_crashes :
    (∀ claim ∈ [announcing none], Admissible claim.status) ∧
      (aggregateStatus [announcing none]).ready = true ∧
      ((upsertWorkloadPlan .entryOrder .text namedWorkload [announcing none] default).execute
        serve [] Store.empty).2.1 = .crashed "nil pointer dereference: claim.Status.Outputs" := by
  refine ⟨?_, rfl, ?_⟩
  · intro claim member
    rw [List.mem_singleton.mp member]
    exact admissible_announcing_none
  · decide +kernel

end ScoreOrchestrator.Reconcile
