/-
Module: Proofs.ConditionLists
Purpose: The condition list of a Workload as a map by type, under any sequence of the
  operations that write to it: types stay pairwise distinct, and an operation leaves the
  conditions it does not address as they are and in their order.
-/
import ScoreOrchestrator.Proofs.TransitionTimes

namespace ScoreOrchestrator.Controller

open Conditions

/-! ### Operations -/

/-- An operation on the conditions of a Workload, with its readings of the clock and what
it is given. -/
inductive ConditionOp where
  | setCondition (now : Time) (type : String) (status : ConditionStatus)
      (reason message : String)
  | applyConditionUpdates (clock : Nat → Time) (updates : List ConditionUpdate)
  | computeFinalStatus (runtimeNow readyNow : Time) (plan : Option WorkloadPlan)
  | updateWorkloadStatusFromAggregation (now : Time) (aggregation : ClaimAggregation)
  | mirrorConditions (clock : Nat → Time) (published : List Condition)

/-- A Workload with other conditions. -/
def withConditions (workload : Workload) (conditions : List Condition) : Workload :=
  { workload with status := { workload.status with conditions } }

namespace ConditionOp

def apply : ConditionOp → Workload → Workload
  | .setCondition now type status reason message, workload =>
    withConditions workload
      (Conditions.setCondition now type status reason message workload.status.conditions)
  | .applyConditionUpdates clock updates, workload =>
    withConditions workload
      (Conditions.applyConditionUpdates clock 0 updates workload.status.conditions)
  | .computeFinalStatus runtimeNow readyNow plan, workload =>
    Controller.computeFinalStatus runtimeNow readyNow workload plan
  | .updateWorkloadStatusFromAggregation now aggregation, workload =>
    Controller.updateWorkloadStatusFromAggregation now workload aggregation
  | .mirrorConditions clock published, workload =>
    withConditions workload
      (Controller.mirrorConditions clock published workload.status.conditions).1

/-- The types an operation addresses.  The mirror addresses those that the published
types are normalized to, several of them to one. -/
def addressed : ConditionOp → List String
  | .setCondition _ type _ _ _ => [type]
  | .applyConditionUpdates _ updates => updates.map ConditionUpdate.type
  | .computeFinalStatus _ _ _ => [runtimeReady, Conditions.ready]
  | .updateWorkloadStatusFromAggregation _ _ => [claimsReady]
  | .mirrorConditions _ published => (normalizeConditions published).map Condition.type

end ConditionOp

/-- The Workload after a sequence of operations. -/
def afterOps (ops : List ConditionOp) (workload : Workload) : Workload :=
  ops.foldl (fun workload op => op.apply workload) workload

/-! ### One write -/

/-- No two conditions have one type. -/
def DistinctTypes (conditions : List Condition) : Prop := (conditions.map Condition.type).Nodup

theorem DistinctTypes.write {conditions : List Condition} (distinct : DistinctTypes conditions)
    (write : ConditionWrite) : DistinctTypes (write.apply conditions) := by
  unfold DistinctTypes
  rw [write.apply_eq, map_type_upsertCondition write.change_type write.fresh_type]
  split
  · exact distinct
  next absent => exact List.nodup_append.mpr ⟨distinct, by simp, by simpa using absent⟩

/-- The condition found for a type is the only one. -/
theorem DistinctTypes.eq_of_getCondition {conditions : List Condition} {type : String}
    {condition other : Condition} (distinct : DistinctTypes conditions)
    (found : getCondition conditions type = some condition) (member : other ∈ conditions)
    (named : other.type = type) : other = condition := by
  have typed : condition.type = type := by simpa using List.find?_some found
  exact List.inj_on_of_nodup_map distinct member (List.mem_of_find?_eq_some found)
    (named.trans typed.symm)

theorem filter_write {write : ConditionWrite} (other : String → Bool)
    (unaddressed : other write.type = false) (conditions : List Condition) :
    (write.apply conditions).filter (fun condition => other condition.type) =
      conditions.filter fun condition => other condition.type := by
  rw [write.apply_eq]
  exact filter_upsertCondition write.change_type write.fresh_type unaddressed _

/-! ### Sequences of writes -/

theorem DistinctTypes.afterWrites {conditions : List Condition}
    (distinct : DistinctTypes conditions) (writes : List ConditionWrite) :
    DistinctTypes (afterWrites writes conditions) := by
  induction writes generalizing conditions with
  | nil => exact distinct
  | cons write rest ih => exact ih (distinct.write write)

theorem filter_afterWrites {writes : List ConditionWrite} (other : String → Bool)
    (unaddressed : ∀ write ∈ writes, other write.type = false) (conditions : List Condition) :
    (afterWrites writes conditions).filter (fun condition => other condition.type) =
      conditions.filter fun condition => other condition.type := by
  induction writes generalizing conditions with
  | nil => rfl
  | cons write rest ih =>
    have later := ih (fun write member => unaddressed write (.tail _ member))
      (write.apply conditions)
    exact later.trans (filter_write other (unaddressed write (.head _)) conditions)

/-! ### Operations are sequences of writes -/

/-- The writes of `ApplyConditionUpdates`. -/
def updateWrites (clock : Nat → Time) : Nat → List ConditionUpdate → List ConditionWrite
  | _, [] => []
  | reading, update :: rest =>
    .pipeline (clock reading) update.type update.status update.reason update.message ::
      updateWrites clock (reading + 1) rest

theorem applyConditionUpdates_eq_afterWrites (clock : Nat → Time) (reading : Nat)
    (updates : List ConditionUpdate) (conditions : List Condition) :
    Conditions.applyConditionUpdates clock reading updates conditions =
      afterWrites (updateWrites clock reading updates) conditions := by
  induction updates generalizing reading conditions with
  | nil => rfl
  | cons update rest ih => exact ih _ _

theorem map_type_updateWrites (clock : Nat → Time) (reading : Nat)
    (updates : List ConditionUpdate) :
    (updateWrites clock reading updates).map ConditionWrite.type =
      updates.map ConditionUpdate.type := by
  induction updates generalizing reading with
  | nil => rfl
  | cons update rest ih => exact congrArg (update.type :: ·) (ih (reading + 1))

theorem map_type_mirrorWrites (clock : Nat → Time) (reading : Nat) (normalized : List Condition) :
    (mirrorWrites clock reading normalized).map ConditionWrite.type =
      normalized.map Condition.type := by
  induction normalized generalizing reading with
  | nil => rfl
  | cons condition rest ih => exact congrArg (condition.type :: ·) (ih (reading + 1))

/-- `ComputeFinalStatus` writes RuntimeReady, whatever the plan, and then Ready. -/
theorem computeFinalStatus_eq_afterWrites (runtimeNow readyNow : Time) (workload : Workload)
    (plan : Option WorkloadPlan) :
    ∃ writes : List ConditionWrite,
      (computeFinalStatus runtimeNow readyNow workload plan).status.conditions =
        afterWrites writes workload.status.conditions ∧
      writes.map ConditionWrite.type = [runtimeReady, Conditions.ready] := by
  cases plan with
  | none => exact ⟨[.pipeline .., .pipeline ..], rfl, rfl⟩
  | some plan => exact ⟨[.pipeline .., .pipeline ..], rfl, rfl⟩

/-- Every operation comes to a sequence of writes to the types it addresses. -/
theorem ConditionOp.exists_writes (op : ConditionOp) (workload : Workload) :
    ∃ writes : List ConditionWrite,
      (op.apply workload).status.conditions = afterWrites writes workload.status.conditions ∧
      writes.map ConditionWrite.type = op.addressed := by
  cases op with
  | setCondition now type status reason message =>
    exact ⟨[.pipeline now type status reason message], rfl, rfl⟩
  | applyConditionUpdates clock updates =>
    exact ⟨_, applyConditionUpdates_eq_afterWrites clock 0 updates _,
      map_type_updateWrites clock 0 updates⟩
  | computeFinalStatus runtimeNow readyNow plan =>
    exact computeFinalStatus_eq_afterWrites runtimeNow readyNow workload plan
  | updateWorkloadStatusFromAggregation now aggregation => exact ⟨[.pipeline ..], rfl, rfl⟩
  | mirrorConditions clock published =>
    exact ⟨_, mirrorLoop_eq_afterWrites clock 0 _ _, map_type_mirrorWrites clock 0 _⟩

/-! ### Whole sequences of operations -/

/-- What one operation does to a well-formed list. -/
structure KeepsList (op : ConditionOp) (before after : List Condition) : Prop where
  distinct : DistinctTypes after
  /-- The conditions it does not address, and their order. -/
  others : after.filter (fun condition => condition.type ∉ op.addressed) =
    before.filter fun condition => condition.type ∉ op.addressed
  /-- After `SetCondition` there is one condition of its type, and it says what was set. -/
  written : ∀ now type status reason message,
    op = .setCondition now type status reason message →
    ∃ condition ∈ after, condition.type = type ∧ condition.status = status ∧
      condition.reason = reason ∧ condition.message = message ∧
      ∀ other ∈ after, other.type = type → other = condition

theorem keepsList_apply (op : ConditionOp) {workload : Workload}
    (distinct : DistinctTypes workload.status.conditions) :
    KeepsList op workload.status.conditions (op.apply workload).status.conditions := by
  obtain ⟨writes, result, types⟩ := op.exists_writes workload
  have after : DistinctTypes (op.apply workload).status.conditions :=
    result ▸ distinct.afterWrites writes
  refine ⟨after, ?_, ?_⟩
  · rw [result]
    refine filter_afterWrites (fun type => type ∉ op.addressed) ?_ _
    intro write member
    have listed : write.type ∈ op.addressed := types ▸ List.mem_map_of_mem member
    simp [listed]
  · rintro now type status reason message rfl
    obtain ⟨condition, found, reported⟩ := reports_setCondition now type status
      reason message workload.status.conditions
    refine ⟨condition, List.mem_of_find?_eq_some found, ?_, reported.1, reported.2.1,
      reported.2.2, ?_⟩
    · simpa using List.find?_some found
    · exact fun other member named => after.eq_of_getCondition found member named

theorem DistinctTypes.afterOps {workload : Workload}
    (distinct : DistinctTypes workload.status.conditions) (ops : List ConditionOp) :
    DistinctTypes (afterOps ops workload).status.conditions := by
  induction ops generalizing workload with
  | nil => exact distinct
  | cons op rest ih => exact ih (keepsList_apply op distinct).distinct

/-- From a list with pairwise distinct types, any sequence of operations leads to such a
list, and each of them keeps it. -/
theorem conditions_stay_wellFormed (ops : List ConditionOp) (workload : Workload)
    (distinct : DistinctTypes workload.status.conditions) :
    DistinctTypes (afterOps ops workload).status.conditions ∧
    ∀ earlier op later, ops = earlier ++ op :: later →
      KeepsList op (afterOps earlier workload).status.conditions
        (afterOps (earlier ++ [op]) workload).status.conditions := by
  refine ⟨distinct.afterOps ops, ?_⟩
  intro earlier op later _
  have last : afterOps (earlier ++ [op]) workload = op.apply (afterOps earlier workload) := by
    simp [afterOps]
  rw [last]
  exact keepsList_apply op (distinct.afterOps earlier)

/-- A Workload with the conditions of an earlier run. -/
def reportedWorkload : Workload where
  metadata := { name := "web", ns := "default", generation := 2 }
  spec := default
  status :=
    { conditions :=
        [⟨"ClaimsReady", .conditionTrue, "Succeeded", "", 3⟩,
          ⟨"RuntimeReady", .conditionFalse, "RuntimeProvisioning", "", 4⟩] }

/-- Its runtime publishes two conditions that are normalized to one type. -/
theorem conditions_stay_wellFormed_mirrored :
    DistinctTypes (afterOps
      [.mirrorConditions (fun _ => 5)
        [⟨"Available", .conditionTrue, "Ready", "", 1⟩,
          ⟨"Progressing", .conditionFalse, "Pending", "", 2⟩], .computeFinalStatus 6 7 none]
      reportedWorkload).status.conditions :=
  (conditions_stay_wellFormed _ reportedWorkload (by unfold DistinctTypes; decide)).1

end ScoreOrchestrator.Controller
