/-
Module: Proofs.RegistrarConvergence
Purpose: One successful run of the exposure registrar reaches the desired spec without
  touching the status, and the next run has nothing to do.
-/
import ScoreOrchestrator.Api.MergePatch
import ScoreOrchestrator.Foundation.Traverse
import ScoreOrchestrator.Proofs.ReadyRule

namespace ScoreOrchestrator.Controller

open Foundation Program

/-! ### The hand-written comparison -/

theorem updateReasons_of_getUpdateReason {current desired : WorkloadExposureSpec}
    (none : getUpdateReason current desired = "") : updateReasons current desired = [] := by
  unfold getUpdateReason at none
  split at none
  next noReason => exact noReason
  · simp at none

/-- Every field is compared: no reason for an update means equal specs. -/
theorem getUpdateReason_eq_empty_iff {current desired : WorkloadExposureSpec} :
    getUpdateReason current desired = "" ↔ current = desired := by
  constructor
  · intro none
    have reasons := updateReasons_of_getUpdateReason none
    simp only [updateReasons, List.append_eq_nil_iff, ite_eq_right_iff, reduceCtorEq,
      imp_false, ne_eq, not_not] at reasons
    obtain ⟨⟨⟨⟨generation, runtimeClass⟩, name⟩, uid⟩, ns⟩ := reasons
    obtain ⟨⟨currentName, currentNs, currentUid⟩, _, _⟩ := current
    obtain ⟨⟨desiredName, desiredNs, desiredUid⟩, _, _⟩ := desired
    simp_all
  · rintro rfl
    simp [getUpdateReason, updateReasons]

/-! ### One run -/

/-- The status of the stored exposure, empty if there is none. -/
def exposureStatus (store : Store) (key : NamespacedName) : WorkloadExposureStatus :=
  ((store.find? .workloadExposure key).map fun exposure => exposure.status).getD {}

/-- The stored exposure has this spec and this status. -/
def Registered (store : Store) (key : NamespacedName) (spec : WorkloadExposureSpec)
    (status : WorkloadExposureStatus) : Prop :=
  ∃ exposure, store.find? .workloadExposure key = some exposure ∧ exposure.spec = spec ∧
    exposure.status = status

section

variable {desired : WorkloadExposure} {before after : Store}

/-- What a successful create stores. -/
theorem registered_of_create {created : WorkloadExposure}
    (served : apiServer (.create .workloadExposure desired) before (.ok created) after) :
    Registered after desired.key desired.spec (exposureStatus before desired.key) := by
  obtain ⟨absent, committed⟩ := apiServer_create_ok served
  have unmarked : (desired.created before.revision).isReleased = false := rfl
  have stored := before.find?_commit_self .workloadExposure unmarked
  rw [← congrArg Prod.snd committed] at stored
  refine ⟨_, stored, rfl, ?_⟩
  unfold exposureStatus
  rw [absent]
  rfl

/-- What a successful patch of the spec that was read stores. -/
theorem registered_of_patch {exposure updated : WorkloadExposure}
    (found : before.find? .workloadExposure desired.key = some exposure)
    (served : apiServer (.patch .workloadExposure exposure
      { exposure with spec := desired.spec }) before (.ok updated) after) :
    Registered after desired.key desired.spec (exposureStatus before desired.key) := by
  have key : exposure.key = desired.key := Store.key_of_find? found
  have sentKey : Resource.key { exposure with spec := desired.spec } = desired.key := key
  have status : exposureStatus before desired.key = exposure.status := by
    unfold exposureStatus
    rw [found]
    rfl
  rw [← sentKey] at found
  obtain ⟨revision, finds⟩ := apiServer_patched_finds found rfl served
  rw [sentKey] at finds
  refine ⟨_, finds, ?_, status.symm⟩
  simp only [Store.stamp, Resource.patchedBy, mergeSpec, mergeField_self]

/-- A successful run stores the desired spec and leaves the status. -/
theorem applyExposure_ok {result : ReconcileResult} {events : List ApiEvent}
    (run : (applyExposure desired).Runs apiServer before events (.returned (.ok result)) after) :
    Registered after desired.key desired.spec (exposureStatus before desired.key) := by
  obtain ⟨reply, middle, _, rfl, served, rest⟩ := run.of_call
  simp only [done_bind] at rest
  cases reply with
  | error fault =>
    obtain rfl : middle = before := apiServer_of_isRead rfl served
    dsimp only at rest
    split at rest
    · cases rest with
      | @call _ _ _ _ _ _ created _ _ creation ending =>
        cases created with
        | error fault => cases ending
        | ok created =>
          cases ending
          exact registered_of_create creation
    · cases rest
  | ok exposure =>
    obtain ⟨found, rfl⟩ := apiServer_get_ok served
    dsimp only at rest
    split at rest
    · cases rest with
      | @call _ _ _ _ _ _ patched _ _ patching ending =>
        cases patched with
        | error fault => cases ending
        | ok updated =>
          cases ending
          exact registered_of_patch found patching
    next upToDate =>
      cases rest
      refine ⟨exposure, found, ?_, ?_⟩
      · exact getUpdateReason_eq_empty_iff.mp (not_not.mp upToDate)
      · unfold exposureStatus
        rw [found]
        rfl

/-- Where the spec is the desired one there is nothing to write. -/
theorem applyExposure_onlyReads {status : WorkloadExposureStatus}
    (registered : Registered before desired.key desired.spec status) :
    OnlyReads truthfulServer (applyExposure desired) before := by
  obtain ⟨exposure, found, spec, _⟩ := registered
  refine .read rfl fun reply _ served => ?_
  obtain ⟨same, answered⟩ := truthfulServer_get found served
  refine ⟨same, ?_⟩
  rcases answered with rfl | ⟨fault, rfl, otherwise⟩
  · have noReason : getUpdateReason exposure.spec desired.spec = "" :=
      getUpdateReason_eq_empty_iff.mpr spec
    simp only [done_bind, noReason, ne_eq, not_true_eq_false, if_false]
    exact .done _
  · simp only [done_bind, otherwise, Bool.false_eq_true, if_false]
    exact .done _

end

/-- The registrar writes no Workload. -/
theorem registerExposure_workloads {runtimeClass : String} {key : NamespacedName}
    {before after : Store} {outcome : Outcome (Except GoError ReconcileResult)}
    {events : List ApiEvent}
    (run : (registerExposure runtimeClass key).Runs apiServer before events outcome after) :
    after.table .workload = before.table .workload := by
  refine table_of_makes_leaves (registerExposure_makes ?_ _ ?_ ?_ key) run
  · exact fun _ _ reads => .inl reads
  · exact fun _ => .inr nofun
  · exact fun _ _ => .inr nofun

/-- The registrar converges: after a successful run for a Workload that is there to stay,
over reads that are current, the stored exposure has the desired spec in every field and
the status it had, empty if it is new; a second run issues no write; and no reason for an
update is given exactly if the specs are equal. -/
theorem registerExposure_converges {runtimeClass : String} {key : NamespacedName}
    {workload : Workload} {before after : Store} {result : ReconcileResult} {events : List ApiEvent}
    (stored : before.find? .workload key = some workload) (live : workload.isBeingDeleted = false)
    (run : (registerExposure runtimeClass key).Runs truthfulServer before events
      (.returned (.ok result)) after) :
    Registered after key (desiredExposure runtimeClass workload).spec (exposureStatus before key) ∧
      OnlyReads truthfulServer (registerExposure runtimeClass key) after ∧
      ∀ current desired : WorkloadExposureSpec,
        getUpdateReason current desired = "" ↔ current = desired := by
  have named : (desiredExposure runtimeClass workload).key = key :=
    Store.key_of_find? stored
  have workloads : after.table .workload = before.table .workload :=
    registerExposure_workloads (run.mono fun _ _ _ _ _ => apiServer_of_truthfulServer)
  have registered : Registered after key (desiredExposure runtimeClass workload).spec
      (exposureStatus before key) := by
    obtain ⟨reply, _, _, rfl, served, rest⟩ := run.of_call
    obtain ⟨rfl, rfl | ⟨fault, rfl, otherwise⟩⟩ := truthfulServer_get stored served
    · simp only [done_bind, live, Bool.false_eq_true, if_false] at rest
      have applied := applyExposure_ok
        (rest.mono fun _ _ _ _ _ => apiServer_of_truthfulServer)
      rwa [named] at applied
    · simp only [done_bind, ignoreNotFound, otherwise, Bool.false_eq_true,
        if_false] at rest
      cases rest
  refine ⟨registered, ?_, fun current desired => getUpdateReason_eq_empty_iff⟩
  have still : after.find? .workload key = some workload := by
    exact (Store.find?_of_table workloads).trans stored
  refine .read rfl fun reply _ served => ?_
  obtain ⟨same, rfl | ⟨fault, rfl, _⟩⟩ := truthfulServer_get still served
  · refine ⟨same, ?_⟩
    simp only [done_bind, live, Bool.false_eq_true, if_false]
    rw [← named] at registered
    exact applyExposure_onlyReads registered
  · exact ⟨same, .done _⟩

/-- A cluster with an exposure whose namespace and runtime class are not the desired ones,
and the registrar's run on it. -/
def renamedRun : List ApiEvent × Outcome (Except GoError ReconcileResult) × Store :=
  (registerExposure "nomad" webKey).execute serve []
    (exposedStore [publishedTrue "Available" "Ready"])

theorem registerExposure_converges_nomad :
    (∃ spec, Registered renamedRun.2.2 webKey spec
        { conditions := [publishedTrue "Available" "Ready"] }) ∧
      OnlyReads truthfulServer (registerExposure "nomad" webKey) renamedRun.2.2 := by
  obtain ⟨workload, stored, live⟩ : ∃ workload,
      (exposedStore [publishedTrue "Available" "Ready"]).find? .workload webKey =
        some workload ∧ workload.isBeingDeleted = false := ⟨_, rfl, rfl⟩
  have returned : renamedRun.2.1.passes (fun returned => returned.toOption.isSome) = true := by
    decide +kernel
  obtain ⟨value, outcome, succeeded⟩ := Outcome.exists_of_passes returned
  obtain ⟨result, rfl⟩ := exists_of_toOption succeeded
  have run := runs_execute_reliable serve (registerExposure "nomad" webKey)
    (exposedStore [publishedTrue "Available" "Ready"])
  unfold renamedRun at outcome
  rw [outcome] at run
  have truthful := run.mono fun _ _ _ _ _ => truthfulServer_of_healthyServer
  obtain ⟨registered, again, _⟩ := registerExposure_converges stored live truthful
  have status : exposureStatus (exposedStore [publishedTrue "Available" "Ready"]) webKey =
      { conditions := [publishedTrue "Available" "Ready"] } := by
    decide +kernel
  rw [status] at registered
  exact ⟨⟨_, registered⟩, again⟩

end ScoreOrchestrator.Controller
