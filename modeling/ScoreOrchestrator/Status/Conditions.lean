/-
Module: Status.Conditions
Purpose: Condition lists, the vocabulary of Workload conditions, and the Ready
  rule (internal/conditions/conditions.go).
Trusted boundary: human-reviewed spec
Main exports: setCondition, applyConditionUpdates, computeReadyCondition, ReadyRule
-/
import ScoreOrchestrator.Api.Types

namespace ScoreOrchestrator.Conditions

variable {change : Condition → Condition} {other : String}

/-! ### Vocabulary -/

def ready : String := "Ready"
def claimsReady : String := "ClaimsReady"
def runtimeReady : String := "RuntimeReady"
def inputsValid : String := "InputsValid"

def reasonSucceeded : String := "Succeeded"
def reasonSpecInvalid : String := "SpecInvalid"
def reasonPolicyViolation : String := "PolicyViolation"
def reasonClaimPending : String := "ClaimPending"
def reasonClaiming : String := "Claiming"
def reasonClaimFailed : String := "ClaimFailed"
def reasonProjectionError : String := "ProjectionError"
def reasonRuntimeSelecting : String := "RuntimeSelecting"
def reasonRuntimeProvisioning : String := "RuntimeProvisioning"
def reasonRuntimeDegraded : String := "RuntimeDegraded"
def reasonQuotaExceeded : String := "QuotaExceeded"
def reasonPermissionDenied : String := "PermissionDenied"
def reasonNetworkUnavailable : String := "NetworkUnavailable"

/-- The condition types of the package. -/
def conditionTypes : List String := [ready, claimsReady, runtimeReady, inputsValid]

/-- The reasons of the package. -/
def conditionReasons : List String :=
  [reasonSucceeded, reasonSpecInvalid, reasonPolicyViolation, reasonClaimPending,
    reasonClaiming, reasonClaimFailed, reasonProjectionError, reasonRuntimeSelecting,
    reasonRuntimeProvisioning, reasonRuntimeDegraded, reasonQuotaExceeded,
    reasonPermissionDenied, reasonNetworkUnavailable]

def messageSpecValidationFailed : String := "Workload specification validation failed"
def messageSpecValidationPending : String := "Workload specification validation pending"
def messageClaimsNotReady : String := "Resource claims are not ready"
def messageClaimsProvisioning : String := "Resource claims are being provisioned"
def messageRuntimeProvisioningFailed : String := "Runtime provisioning failed"
def messageRuntimeProvisioning : String := "Runtime is being provisioned"
def messageWorkloadReady : String := "Workload is ready and operational"
def messageAllClaimsReady : String := "All resource claims are ready"
def messageClaimsFailed : String := "One or more resource claims have failed"
def messageProjectionError : String := "One or more required outputs are not resolved."

/-! ### Condition lists -/

/-- `GetCondition`, and `findCondition` of the mirror: the first condition of a
type. -/
def getCondition (conditions : List Condition) (type : String) : Option Condition :=
  conditions.find? fun condition => condition.type = type

/-- `IsConditionTrue`. -/
def isConditionTrue (conditions : List Condition) (type : String) : Bool :=
  match getCondition conditions type with
  | some condition => condition.status = .conditionTrue
  | none => false

/-- Change the first condition of a type, or append a fresh one.  Both
controllers write conditions this way and differ in the change they make. -/
def upsertCondition (type : String) (change : Condition → Condition) (fresh : Condition) :
    List Condition → List Condition
  | [] => [fresh]
  | condition :: rest =>
    if condition.type = type then change condition :: rest
    else condition :: upsertCondition type change fresh rest

/-- What `SetCondition` does to a condition of its type: the transition time
moves only with status or reason. -/
def changeCondition (now : Time) (status : ConditionStatus) (reason message : String)
    (condition : Condition) : Condition :=
  if condition.status ≠ status ∨ condition.reason ≠ reason then
    { condition with status, reason, message, lastTransitionTime := now }
  else if condition.message ≠ message then { condition with message }
  else condition

@[simp] theorem changeCondition_type (now : Time) (status : ConditionStatus)
    (reason message : String) (condition : Condition) :
    (changeCondition now status reason message condition).type = condition.type := by
  unfold changeCondition
  split
  · rfl
  · split <;> rfl

@[simp] theorem changeCondition_status (now : Time) (status : ConditionStatus)
    (reason message : String) (condition : Condition) :
    (changeCondition now status reason message condition).status = status := by
  unfold changeCondition
  split
  · rfl
  next unchanged =>
    have same : condition.status = status := by
      by_contra differs
      exact unchanged (.inl differs)
    split <;> exact same

/-- `SetCondition`. -/
def setCondition (now : Time) (type : String) (status : ConditionStatus) (reason message : String) :
    List Condition → List Condition :=
  upsertCondition type (changeCondition now status reason message)
    { type, status, reason, message, lastTransitionTime := now }

/-- `ConditionUpdate`. -/
structure ConditionUpdate where
  type : String
  status : ConditionStatus
  reason : String
  message : String
deriving DecidableEq, Repr

/-- `ApplyConditionUpdates`, from a reading of the clock on. -/
def applyConditionUpdates (clock : Nat → Time) :
    Nat → List ConditionUpdate → List Condition → List Condition
  | _, [], conditions => conditions
  | reading, update :: rest, conditions =>
    applyConditionUpdates clock (reading + 1) rest
      (setCondition (clock reading) update.type update.status update.reason update.message
        conditions)

/-- The status a boolean is reported as. -/
def statusOf (holds : Bool) : ConditionStatus :=
  if holds then .conditionTrue else .conditionFalse

theorem getCondition_upsertCondition_self {type : String} (fresh : Condition)
    (kept : ∀ condition, (change condition).type = condition.type) (named : fresh.type = type)
    (conditions : List Condition) :
    getCondition (upsertCondition type change fresh conditions) type =
      some (((getCondition conditions type).map change).getD fresh) := by
  induction conditions with
  | nil => simp [upsertCondition, getCondition, named]
  | cons condition rest ih =>
    by_cases same : condition.type = type
    · simp [upsertCondition, getCondition, same, kept]
    · simpa [upsertCondition, getCondition, same] using ih

theorem getCondition_upsertCondition_of_ne {type : String} (fresh : Condition)
    (kept : ∀ condition, (change condition).type = condition.type) (named : fresh.type = type)
    (different : other ≠ type) (conditions : List Condition) :
    getCondition (upsertCondition type change fresh conditions) other =
      getCondition conditions other := by
  induction conditions with
  | nil => simp [upsertCondition, getCondition, named, different.symm]
  | cons condition rest ih =>
    by_cases same : condition.type = type
    · simp [upsertCondition, getCondition, same, kept, different.symm]
    · by_cases wanted : condition.type = other
      · simp [upsertCondition, getCondition, wanted, different]
      · simpa [upsertCondition, getCondition, same, wanted] using ih

/-- The types after an upsert: the same, or one more at the end. -/
theorem map_type_upsertCondition {type : String} {fresh : Condition}
    (kept : ∀ condition, (change condition).type = condition.type) (named : fresh.type = type)
    (conditions : List Condition) :
    (upsertCondition type change fresh conditions).map Condition.type =
      if type ∈ conditions.map Condition.type then conditions.map Condition.type
      else conditions.map Condition.type ++ [type] := by
  induction conditions with
  | nil => simp [upsertCondition, named]
  | cons condition rest ih =>
    by_cases same : condition.type = type
    · simp [upsertCondition, same, kept]
    · simp only [upsertCondition, same, if_false, List.map_cons, ih,
        List.mem_cons, Ne.symm same, false_or]
      split <;> rfl

/-- Conditions of other types stay as they are and where they are. -/
theorem filter_upsertCondition {type : String} {fresh : Condition}
    (kept : ∀ condition, (change condition).type = condition.type) (named : fresh.type = type)
    {other : String → Bool} (unaddressed : other type = false) (conditions : List Condition) :
    (upsertCondition type change fresh conditions).filter (fun condition => other condition.type) =
      conditions.filter fun condition => other condition.type := by
  induction conditions with
  | nil => simp [upsertCondition, named, unaddressed]
  | cons condition rest ih =>
    by_cases same : condition.type = type
    · simp [upsertCondition, same, kept, unaddressed]
    · simp [upsertCondition, same, List.filter_cons, ih]

section

variable (now : Time) (type : String) (status : ConditionStatus)
  (reason message : String) (conditions : List Condition)

/-- After `SetCondition` the type has the given status. -/
theorem isConditionTrue_setCondition_self :
    isConditionTrue (setCondition now type status reason message conditions) type =
      decide (status = .conditionTrue) := by
  have found := getCondition_upsertCondition_self
    ⟨type, status, reason, message, now⟩
    (changeCondition_type now status reason message) rfl conditions
  unfold isConditionTrue setCondition
  rw [found]
  cases getCondition conditions type <;> simp

/-- `SetCondition` leaves the other types alone. -/
theorem isConditionTrue_setCondition_of_ne (different : other ≠ type) :
    isConditionTrue (setCondition now type status reason message conditions) other =
      isConditionTrue conditions other := by
  have found := getCondition_upsertCondition_of_ne
    ⟨type, status, reason, message, now⟩
    (changeCondition_type now status reason message) rfl different conditions
  unfold isConditionTrue setCondition
  rw [found]

end

/-! ### Setting a condition again -/

/-- The first condition of a type says this. -/
def Reports (conditions : List Condition) (type : String) (status : ConditionStatus)
    (reason message : String) : Prop :=
  ∃ condition, getCondition conditions type = some condition ∧
    condition.status = status ∧ condition.reason = reason ∧ condition.message = message

theorem changeCondition_reason (now : Time) (status : ConditionStatus) (reason message : String)
    (condition : Condition) :
    (changeCondition now status reason message condition).reason = reason := by
  unfold changeCondition
  split
  · rfl
  next unchanged =>
    have same : condition.reason = reason := by
      by_contra differs
      exact unchanged (.inr differs)
    split <;> exact same

theorem changeCondition_message (now : Time) (status : ConditionStatus) (reason message : String)
    (condition : Condition) :
    (changeCondition now status reason message condition).message = message := by
  unfold changeCondition
  split
  · rfl
  · split
    · rfl
    next same => exact not_not.mp same

section

variable (now : Time) (type : String) (status : ConditionStatus)
  (reason message : String) (conditions : List Condition)

theorem reports_setCondition :
    Reports (setCondition now type status reason message conditions) type status reason
      message := by
  have found := getCondition_upsertCondition_self
    ⟨type, status, reason, message, now⟩
    (changeCondition_type now status reason message) rfl conditions
  refine ⟨_, found, ?_⟩
  cases getCondition conditions type with
  | none => exact ⟨rfl, rfl, rfl⟩
  | some condition =>
    exact ⟨changeCondition_status .., changeCondition_reason .., changeCondition_message ..⟩

theorem getCondition_setCondition_of_ne (different : other ≠ type) :
    getCondition (setCondition now type status reason message conditions) other =
      getCondition conditions other :=
  getCondition_upsertCondition_of_ne ⟨type, status, reason, message, now⟩
    (changeCondition_type now status reason message) rfl different conditions

variable {type status reason message conditions}

/-- Setting another condition leaves what a type reports. -/
theorem Reports.setCondition {now : Time} {otherStatus : ConditionStatus}
    {otherReason otherMessage : String} (different : other ≠ type)
    (reports : Reports conditions other otherStatus otherReason otherMessage) :
    Reports (setCondition now type status reason message conditions) other otherStatus
      otherReason otherMessage := by
  obtain ⟨condition, found, reported⟩ := reports
  exact ⟨condition, (getCondition_setCondition_of_ne _ _ _ _ _ _ different).trans found,
    reported⟩

/-- Setting a condition to what it says changes nothing, not even its time. -/
theorem setCondition_of_reports (reports : Reports conditions type status reason message) :
    setCondition now type status reason message conditions = conditions := by
  obtain ⟨condition, found, rfl, rfl, rfl⟩ := reports
  unfold setCondition
  induction conditions with
  | nil => cases found
  | cons first rest ih =>
    by_cases same : first.type = type
    · obtain rfl : first = condition := by simpa [getCondition, same] using found
      simp [upsertCondition, same, changeCondition]
    · have later : getCondition rest type = some condition := by
        simpa [getCondition, same] using found
      simp [upsertCondition, same, ih later]

end

/-! ### The Ready rule -/

/-- One failed part of the Ready rule: its own reason if it is reported as
False, the pending reason otherwise. -/
def notReadyBecause (conditions : List Condition) (type failedMessage
    pendingReason pendingMessage : String) : ConditionStatus × String × String :=
  match getCondition conditions type with
  | some condition =>
    if condition.status = .conditionFalse then
      (.conditionFalse, condition.reason, failedMessage)
    else (.conditionFalse, pendingReason, pendingMessage)
  | none => (.conditionFalse, pendingReason, pendingMessage)

/-- `ComputeReadyCondition`. -/
def computeReadyCondition (conditions : List Condition) : ConditionStatus × String × String :=
  if !isConditionTrue conditions inputsValid then
    notReadyBecause conditions inputsValid messageSpecValidationFailed
      reasonSpecInvalid messageSpecValidationPending
  else if !isConditionTrue conditions claimsReady then
    notReadyBecause conditions claimsReady messageClaimsNotReady
      reasonClaimPending messageClaimsProvisioning
  else if !isConditionTrue conditions runtimeReady then
    notReadyBecause conditions runtimeReady messageRuntimeProvisioningFailed
      reasonRuntimeProvisioning messageRuntimeProvisioning
  else (.conditionTrue, reasonSucceeded, messageWorkloadReady)

/-- All three parts of readiness hold. -/
def AllPartsTrue (conditions : List Condition) : Prop :=
  isConditionTrue conditions inputsValid ∧ isConditionTrue conditions claimsReady ∧
    isConditionTrue conditions runtimeReady

instance (conditions : List Condition) : Decidable (AllPartsTrue conditions) :=
  inferInstanceAs (Decidable (_ ∧ _ ∧ _))

/-- The rule of the lifecycle: Ready only with all three parts. -/
def ReadyRule (conditions : List Condition) : Prop :=
  isConditionTrue conditions ready → AllPartsTrue conditions

instance (conditions : List Condition) : Decidable (ReadyRule conditions) :=
  inferInstanceAs (Decidable (_ → _))

theorem notReadyBecause_status (conditions : List Condition)
    (type failedMessage pendingReason pendingMessage : String) :
    (notReadyBecause conditions type failedMessage pendingReason
      pendingMessage).1 = .conditionFalse := by
  unfold notReadyBecause
  split
  · split <;> rfl
  · rfl

theorem computeReadyCondition_status (conditions : List Condition) :
    (computeReadyCondition conditions).1 = .conditionTrue ↔ AllPartsTrue conditions := by
  unfold computeReadyCondition AllPartsTrue
  cases isConditionTrue conditions inputsValid <;>
    cases isConditionTrue conditions claimsReady <;>
      cases isConditionTrue conditions runtimeReady <;>
        simp [notReadyBecause_status]

/-- Writing the computed Ready condition establishes the rule. -/
theorem readyRule_setCondition_ready (now : Time) (conditions : List Condition) :
    ReadyRule (setCondition now ready (computeReadyCondition conditions).1
      (computeReadyCondition conditions).2.1
      (computeReadyCondition conditions).2.2 conditions) := by
  intro isReady
  rw [isConditionTrue_setCondition_self, decide_eq_true_eq,
    computeReadyCondition_status] at isReady
  unfold AllPartsTrue
  rw [isConditionTrue_setCondition_of_ne _ _ _ _ _ _ (by decide),
    isConditionTrue_setCondition_of_ne _ _ _ _ _ _ (by decide),
    isConditionTrue_setCondition_of_ne _ _ _ _ _ _ (by decide)]
  exact isReady

/-- The Ready condition is computed from its three parts. -/
theorem computeReadyCondition_congr {conditions others : List Condition}
    (inputs : getCondition conditions inputsValid = getCondition others inputsValid)
    (claims : getCondition conditions claimsReady = getCondition others claimsReady)
    (runtime : getCondition conditions runtimeReady = getCondition others runtimeReady) :
    computeReadyCondition conditions = computeReadyCondition others := by
  unfold computeReadyCondition isConditionTrue notReadyBecause
  rw [inputs, claims, runtime]

/-- The Ready condition is no part of itself. -/
theorem computeReadyCondition_setCondition_ready (now : Time) (status : ConditionStatus)
    (reason message : String) (conditions : List Condition) :
    computeReadyCondition (setCondition now ready status reason message conditions) =
      computeReadyCondition conditions := by
  apply computeReadyCondition_congr
  · exact getCondition_setCondition_of_ne _ _ _ _ _ _ (by decide)
  · exact getCondition_setCondition_of_ne _ _ _ _ _ _ (by decide)
  · exact getCondition_setCondition_of_ne _ _ _ _ _ _ (by decide)

end ScoreOrchestrator.Conditions
