/-
Module: Controller.Mirror
Purpose: Mirroring of WorkloadExposure status into Workload status, with the
  normalization of runtime conditions (internal/status/normalize.go and
  internal/controller/exposure_mirror_controller.go).
Trusted boundary: human-reviewed spec
Main exports: normalizeConditions, mirrorConditions, reconcileExposure
-/
import ScoreOrchestrator.Controller.Pipeline

namespace ScoreOrchestrator.Controller

open Foundation
open Conditions (getCondition isConditionTrue upsertCondition)

/-! ### Normalization -/

/-- `reasonMap` of `normalizeReason`. -/
def reasonMap : List (String × String) :=
  [("Ready", "Succeeded"), ("Available", "Succeeded"),
    ("Deployed", "Succeeded"), ("Active", "Succeeded"),
    ("Healthy", "Succeeded"), ("Running", "Succeeded"),
    ("InvalidSpec", "SpecInvalid"), ("ValidationError", "SpecInvalid"),
    ("SchemaViolation", "SpecInvalid"), ("InvalidConfiguration", "SpecInvalid"),
    ("PolicyViolation", "PolicyViolation"),
    ("SecurityViolation", "PolicyViolation"),
    ("ComplianceFailure", "PolicyViolation"),
    ("AdmissionDenied", "PolicyViolation"),
    ("Pending", "BindingPending"), ("Waiting", "BindingPending"),
    ("Provisioning", "BindingPending"), ("BindingFailed", "BindingFailed"),
    ("ProvisioningFailed", "BindingFailed"),
    ("ResourceUnavailable", "BindingFailed"),
    ("ProjectionError", "ProjectionError"),
    ("TransformationError", "ProjectionError"),
    ("MappingError", "ProjectionError"),
    ("Selecting", "RuntimeSelecting"),
    ("RuntimeProvisioning", "RuntimeProvisioning"),
    ("Degraded", "RuntimeDegraded"), ("Unavailable", "RuntimeDegraded"),
    ("Failed", "RuntimeDegraded"),
    ("QuotaExceeded", "QuotaExceeded"),
    ("ResourceQuotaExceeded", "QuotaExceeded"),
    ("LimitExceeded", "QuotaExceeded"),
    ("PermissionDenied", "PermissionDenied"), ("Forbidden", "PermissionDenied"),
    ("Unauthorized", "PermissionDenied"), ("AccessDenied", "PermissionDenied"),
    ("NetworkUnavailable", "NetworkUnavailable"),
    ("NetworkError", "NetworkUnavailable"),
    ("ConnectivityError", "NetworkUnavailable"),
    ("DNSError", "NetworkUnavailable")]

/-- `typeMap` of `normalizeConditionType`. -/
def typeMap : List (String × String) :=
  [("Ready", "Ready"), ("ClaimsReady", "ClaimsReady"),
    ("RuntimeReady", "RuntimeReady"), ("InputsValid", "InputsValid"),
    ("Available", "RuntimeReady"), ("Deployed", "RuntimeReady"),
    ("Active", "RuntimeReady"), ("Healthy", "RuntimeReady"),
    ("Running", "RuntimeReady"), ("Progressing", "RuntimeReady"),
    ("Valid", "InputsValid"), ("Validated", "InputsValid"),
    ("SpecValid", "InputsValid"),
    ("Bound", "ClaimsReady"), ("Provisioned", "ClaimsReady"),
    ("ResourceReady", "ClaimsReady")]

/-- `normalizeReason`; `none` filters the condition out. -/
def normalizeReason (reason : String) : Option String := reasonMap.lookup reason

/-- `normalizeConditionType`. -/
def normalizeConditionType (type : String) : Option String := typeMap.lookup type

/-- `normalizeCondition`.  Messages pass through as they are. -/
def normalizeCondition (condition : Condition) : Option Condition := do
  let reason ← normalizeReason condition.reason
  let type ← normalizeConditionType condition.type
  some { condition with type, reason }

/-- `NormalizeConditions`. -/
def normalizeConditions (conditions : List Condition) : List Condition :=
  conditions.filterMap normalizeCondition

/-! ### Mirroring -/

/-- What `setStatusCondition` does to a condition of its type: the transition
time moves only with the status. -/
def changeStatusCondition (now : Time) (newCondition existing : Condition) : Condition :=
  { existing with
    status := newCondition.status
    reason := newCondition.reason
    message := newCondition.message
    lastTransitionTime :=
      if existing.status ≠ newCondition.status then now
      else existing.lastTransitionTime }

/-- `setStatusCondition`.  Time zero stands for an unset time. -/
def setStatusCondition (now : Time) (newCondition : Condition) : List Condition → List Condition :=
  upsertCondition newCondition.type (changeStatusCondition now newCondition)
    { newCondition with
      lastTransitionTime :=
        if newCondition.lastTransitionTime = 0 then now
        else newCondition.lastTransitionTime }

/-- Would this condition change anything? -/
def differs (existing : Option Condition) (condition : Condition) : Bool :=
  match existing with
  | none => true
  | some existing =>
    existing.status ≠ condition.status || existing.reason ≠ condition.reason ||
      existing.message ≠ condition.message

/-- The loop of `mirrorConditions` over the normalized conditions, with the
reading of the clock it has come to. -/
def mirrorLoop (clock : Nat → Time) :
    Nat → List Condition → List Condition → List Condition × Bool
  | _, [], conditions => (conditions, false)
  | reading, condition :: rest, conditions =>
    if differs (getCondition conditions condition.type) condition then
      ((mirrorLoop clock (reading + 1) rest
        (setStatusCondition (clock reading) condition conditions)).1, true)
    else mirrorLoop clock (reading + 1) rest conditions

/-- `mirrorConditions`: the new condition list, and whether it was updated. -/
def mirrorConditions (clock : Nat → Time) (published conditions : List Condition) :
    List Condition × Bool :=
  mirrorLoop clock 0 (normalizeConditions published) conditions

/-- What one mirror run finds besides the cluster.  URL parsing is Go's. -/
structure MirrorSettings where
  clock : Nat → Time
  isValidURL : String → Bool

/-- The endpoint an exposure asks for: the URL of its first entry, if valid. -/
def newEndpoint (settings : MirrorSettings) (exposure : WorkloadExposure) : Option String :=
  match exposure.status.exposures with
  | [] => none
  | top :: _ => if settings.isValidURL top.url then some top.url else none

/-- What an exposure asks for is its first URL, if that is valid. -/
theorem newEndpoint_eq_some {settings : MirrorSettings} {exposure : WorkloadExposure} {url : String}
    (asked : newEndpoint settings exposure = some url) :
    settings.isValidURL url = true ∧
      exposure.status.exposures.head?.map ExposureEntry.url = some url := by
  unfold newEndpoint at asked
  split at asked
  · cases asked
  next top rest same =>
    split at asked
    next valid =>
      cases asked
      simp [same, valid]
    · cases asked

/-- The Workload with the exposure's status laid over its own, and whether
anything was updated. -/
def mirrorStatus (settings : MirrorSettings) (workload : Workload) (exposure : WorkloadExposure) :
    Workload × Bool :=
  let endpoint := newEndpoint settings exposure
  let (conditions, updated) := mirrorConditions settings.clock
    exposure.status.conditions workload.status.conditions
  ({ workload with status := { workload.status with endpoint, conditions } },
    workload.status.endpoint ≠ endpoint || updated)

/-- The Workload an exposure refers to. -/
def exposedWorkload (exposure : WorkloadExposure) : NamespacedName where
  ns := exposure.spec.workloadRef.ns.getD exposure.metadata.ns
  name := exposure.spec.workloadRef.name

/-- The exposure belongs to another incarnation of the Workload, or to an
earlier generation. -/
def isOutdated (exposure : WorkloadExposure) (workload : Workload) : Bool :=
  (exposure.spec.workloadRef.uid ≠ "" && workload.metadata.uid ≠ exposure.spec.workloadRef.uid) ||
    exposure.spec.observedWorkloadGeneration < workload.metadata.generation

/-- `client.IgnoreNotFound`. -/
def ignoreNotFound (fault : GoError) : Except GoError ReconcileResult :=
  if fault.isNotFound then .ok {} else .error fault

/-- The part of the mirror after both objects were read. -/
def patchMirrored (settings : MirrorSettings) (exposure : WorkloadExposure) (workload : Workload) :
    Client (Except GoError ReconcileResult) :=
  if isOutdated exposure workload then pure (.ok {})
  else
    let (mirrored, updated) := mirrorStatus settings workload exposure
    if updated then do
      let patched ← Program.request (.patchStatus .workload workload mirrored)
      match patched with
      | .ok _ => pure (.ok {})
      | .error fault => pure (.error fault)
    else pure (.ok {})

/-- `ExposureMirrorReconciler.Reconcile`. -/
def reconcileExposure (settings : MirrorSettings) (key : NamespacedName) :
    Client (Except GoError ReconcileResult) := do
  let gotExposure ← Program.request (.get .workloadExposure key)
  match gotExposure with
  | .error fault => pure (ignoreNotFound fault)
  | .ok exposure =>
    let gotWorkload ← Program.request (.get .workload (exposedWorkload exposure))
    match gotWorkload with
    | .error fault => pure (ignoreNotFound fault)
    | .ok workload => patchMirrored settings exposure workload

/-! ### What mirroring makes of each condition -/

/-- The last condition of a type. -/
def lastOf (type : String) : List Condition → Option Condition
  | [] => none
  | condition :: rest =>
    (lastOf type rest).or (if condition.type = type then some condition else none)

/-- Is a type reported True once published conditions are laid over a list?
The last publishable condition of the type decides, else the list does. -/
def overlaid (normalized conditions : List Condition) (type : String) : Bool :=
  match lastOf type normalized with
  | some condition => condition.status = .conditionTrue
  | none => isConditionTrue conditions type

@[simp] theorem changeStatusCondition_type (now : Time) (condition existing : Condition) :
    (changeStatusCondition now condition existing).type = existing.type := rfl

theorem isConditionTrue_setStatusCondition_self (now : Time) (condition : Condition)
    (conditions : List Condition) :
    isConditionTrue (setStatusCondition now condition conditions) condition.type =
      decide (condition.status = .conditionTrue) := by
  have found := Conditions.getCondition_upsertCondition_self
    { condition with
      lastTransitionTime :=
        if condition.lastTransitionTime = 0 then now
        else condition.lastTransitionTime }
    (changeStatusCondition_type now condition) rfl conditions
  unfold isConditionTrue setStatusCondition
  rw [found]
  cases getCondition conditions condition.type <;> simp [changeStatusCondition]

theorem getCondition_setStatusCondition_of_ne (now : Time) {condition : Condition} {type : String}
    (conditions : List Condition) (different : type ≠ condition.type) :
    getCondition (setStatusCondition now condition conditions) type =
      getCondition conditions type := by
  apply Conditions.getCondition_upsertCondition_of_ne
  · exact changeStatusCondition_type now condition
  · rfl
  · exact different

theorem isConditionTrue_setStatusCondition_of_ne (now : Time) {condition : Condition}
    {type : String} (conditions : List Condition) (different : type ≠ condition.type) :
    isConditionTrue (setStatusCondition now condition conditions) type =
      isConditionTrue conditions type := by
  unfold isConditionTrue
  rw [getCondition_setStatusCondition_of_ne now conditions different]

/-- A condition that would change nothing has the status it would set. -/
theorem isConditionTrue_of_not_differs {condition : Condition} {conditions : List Condition}
    (same : differs (getCondition conditions condition.type) condition = false) :
    isConditionTrue conditions condition.type =
      decide (condition.status = .conditionTrue) := by
  unfold isConditionTrue
  cases found : getCondition conditions condition.type with
  | none => simp [found, differs] at same
  | some existing =>
    simp only [found, differs, Bool.or_eq_false_iff, decide_eq_false_iff_not,
      ne_eq, not_not] at same
    simp [same.1.1]

/-- One step of the loop settles its own type and leaves the others. -/
theorem isConditionTrue_mirrorLoop (clock : Nat → Time) (reading : Nat)
    (normalized conditions : List Condition) (type : String) :
    isConditionTrue (mirrorLoop clock reading normalized conditions).1 type =
      overlaid normalized conditions type := by
  induction normalized generalizing reading conditions with
  | nil => rfl
  | cons condition rest ih =>
    -- the tail decides if it publishes the type at all
    have tail : ∀ later : List Condition,
        isConditionTrue later type =
          (if condition.type = type then decide (condition.status = .conditionTrue)
            else isConditionTrue conditions type) →
        overlaid rest later type = overlaid (condition :: rest) conditions type := by
      intro later settled
      unfold overlaid
      rw [lastOf]
      cases lastOf type rest with
      | some last => rfl
      | none => by_cases named : condition.type = type <;> simp_all
    unfold mirrorLoop
    split
    · refine (ih _ _).trans (tail _ ?_)
      split
      next named =>
        rw [← named, isConditionTrue_setStatusCondition_self]
      next other =>
        exact isConditionTrue_setStatusCondition_of_ne _ _ (Ne.symm other)
    next same =>
      refine (ih _ _).trans (tail _ ?_)
      split
      next named =>
        rw [← named]
        exact isConditionTrue_of_not_differs (by simpa using same)
      next => rfl

end ScoreOrchestrator.Controller
