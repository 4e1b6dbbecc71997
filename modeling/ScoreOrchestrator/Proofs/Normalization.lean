/-
Module: Proofs.Normalization
Purpose: Normalization against the abstract vocabulary it translates into: which lists
  of runtime conditions come out within the vocabulary, with what was in it kept, and
  unchanged by a second normalization.
-/
import ScoreOrchestrator.Controller.Mirror
import Mathlib.Data.List.Basic

namespace ScoreOrchestrator.Controller

open Conditions

variable {condition normalized : Condition}

/-! ### The tables -/

/-- The reasons that are both in the vocabulary and their own translation. -/
def settledReasons : List String :=
  [reasonPolicyViolation, reasonProjectionError,
    reasonRuntimeProvisioning, reasonQuotaExceeded,
    reasonPermissionDenied, reasonNetworkUnavailable]

/-- The abstract reasons for which the table has no entry. -/
def unlistedReasons : List String :=
  [reasonSucceeded, reasonSpecInvalid, reasonClaimPending,
    reasonClaiming, reasonClaimFailed,
    reasonRuntimeSelecting, reasonRuntimeDegraded]

/-- The reasons of runtimes that become an unlisted reason, `BindingPending` or
`BindingFailed`. -/
def lossyReasons : List String :=
  ["Ready", "Available", "Deployed", "Active", "Healthy", "Running", "InvalidSpec",
    "ValidationError", "SchemaViolation", "InvalidConfiguration", "Pending", "Waiting",
    "Provisioning", "BindingFailed", "ProvisioningFailed", "ResourceUnavailable", "Selecting",
    "Degraded", "Unavailable", "Failed"]

/-- The types of runtimes that are no abstract ones but are translated. -/
def runtimeTypes : List String :=
  ["Available", "Deployed", "Active", "Healthy", "Running", "Progressing", "Valid",
    "Validated", "SpecValid", "Bound", "Provisioned", "ResourceReady"]

theorem mem_of_lookup {table : List (String × String)} {key value : String}
    (found : table.lookup key = some value) : (key, value) ∈ table := by
  obtain ⟨before, after, rfl, _⟩ := List.lookup_eq_some_iff.mp found
  exact List.mem_append_right before (.head after)

/-- Every type is translated into the vocabulary. -/
theorem normalizeConditionType_into {type normalized : String}
    (translated : normalizeConditionType type = some normalized) : normalized ∈ conditionTypes := by
  have table : ∀ entry ∈ typeMap, entry.2 ∈ conditionTypes := by decide +kernel
  exact table _ (mem_of_lookup translated)

theorem normalizeConditionType_of_mem {type : String} (abstract_ : type ∈ conditionTypes) :
    normalizeConditionType type = some type := by
  have table : ∀ type ∈ conditionTypes, normalizeConditionType type = some type := by
    decide +kernel
  exact table type abstract_

/-- The types that are translated at all. -/
theorem normalizeConditionType_isSome {type : String} :
    (normalizeConditionType type).isSome ↔ type ∈ conditionTypes ++ runtimeTypes := by
  constructor
  · intro translated
    obtain ⟨normalized, found⟩ := Option.isSome_iff_exists.mp translated
    have table : ∀ entry ∈ typeMap, entry.1 ∈ conditionTypes ++ runtimeTypes := by
      decide +kernel
    exact table _ (mem_of_lookup found)
  · intro listed
    have table : ∀ type ∈ conditionTypes ++ runtimeTypes, (normalizeConditionType type).isSome := by
      decide +kernel
    exact table type listed

/-- The reasons whose translation is not a settled one. -/
theorem mem_lossyReasons {reason : String} :
    reason ∈ lossyReasons ↔
      ∃ normalized, normalizeReason reason = some normalized ∧ normalized ∉ settledReasons := by
  constructor
  · intro lossy
    have table : ∀ reason ∈ lossyReasons,
        (normalizeReason reason).any (· ∉ settledReasons) = true := by
      decide +kernel
    simpa [Option.any_eq_true] using table reason lossy
  · rintro ⟨normalized, found, unsettled⟩
    have table : ∀ entry ∈ reasonMap, entry.2 ∉ settledReasons → entry.1 ∈ lossyReasons := by
      decide +kernel
    exact table _ (mem_of_lookup found) unsettled

/-- Of the translated reasons the settled ones are those in the vocabulary that a second
translation keeps.  The table also yields `BindingPending` and `BindingFailed`, which the
vocabulary lacks, and `Succeeded` and others, for which it has no entry. -/
theorem normalizeReason_into {reason normalized : String}
    (translated : normalizeReason reason = some normalized) :
    normalized ∈ settledReasons ↔
      normalized ∈ conditionReasons ∧ normalizeReason normalized = some normalized := by
  have table : ∀ entry ∈ reasonMap, (entry.2 ∈ settledReasons ↔
      entry.2 ∈ conditionReasons ∧ normalizeReason entry.2 = some entry.2) := by
    decide +kernel
  exact table _ (mem_of_lookup translated)

theorem normalizeReason_of_mem {reason : String} (abstract_ : reason ∈ conditionReasons) :
    normalizeReason reason = some reason ↔ reason ∈ settledReasons := by
  have table : ∀ reason ∈ conditionReasons,
      (normalizeReason reason = some reason ↔ reason ∈ settledReasons) := by
    decide +kernel
  exact table reason abstract_

/-! ### One condition -/

/-- The condition speaks the abstract vocabulary. -/
def InVocabulary (condition : Condition) : Prop :=
  condition.type ∈ conditionTypes ∧ condition.reason ∈ conditionReasons

instance (condition : Condition) : Decidable (InVocabulary condition) :=
  inferInstanceAs (Decidable (_ ∧ _))

theorem normalizeCondition_eq_some :
    normalizeCondition condition = some normalized ↔
      ∃ reason type, normalizeReason condition.reason = some reason ∧
        normalizeConditionType condition.type = some type ∧
        normalized = { condition with type, reason } := by
  unfold normalizeCondition
  cases normalizeReason condition.reason with
  | none => simp
  | some reason =>
    cases normalizeConditionType condition.type with
    | none => simp
    | some type => simp [eq_comm]

/-- A condition is kept exactly if both of its names are. -/
theorem normalizeCondition_eq_self_iff :
    normalizeCondition condition = some condition ↔
      normalizeReason condition.reason = some condition.reason ∧
        normalizeConditionType condition.type = some condition.type := by
  rw [normalizeCondition_eq_some]
  constructor
  · rintro ⟨reason, type, reasonFound, typeFound, same⟩
    obtain ⟨rfl, rfl⟩ : condition.type = type ∧ condition.reason = reason :=
      ⟨congrArg Condition.type same, congrArg Condition.reason same⟩
    exact ⟨reasonFound, typeFound⟩
  · rintro ⟨reasonFound, typeFound⟩
    exact ⟨condition.reason, condition.type, reasonFound, typeFound, rfl⟩

/-- A condition whose normalization stays within the vocabulary: a type that is translated
comes with no lossy reason, and an abstract one with no unlisted reason. -/
structure Settles (condition : Condition) : Prop where
  lossless : condition.type ∈ conditionTypes ++ runtimeTypes →
    condition.reason ∉ lossyReasons
  listed : condition.type ∈ conditionTypes → condition.reason ∉ unlistedReasons

theorem lossless_iff :
    (condition.type ∈ conditionTypes ++ runtimeTypes → condition.reason ∉ lossyReasons) ↔
      ∀ normalized, normalizeCondition condition = some normalized →
        normalized.reason ∈ settledReasons := by
  rw [← normalizeConditionType_isSome, mem_lossyReasons]
  constructor
  · intro lossless normalized translated
    obtain ⟨reason, type, reasonFound, typeFound, rfl⟩ := normalizeCondition_eq_some.mp translated
    by_contra unsettled
    exact lossless (typeFound ▸ rfl) ⟨reason, reasonFound, unsettled⟩
  · rintro settled typed ⟨reason, reasonFound, unsettled⟩
    obtain ⟨type, typeFound⟩ := Option.isSome_iff_exists.mp typed
    exact unsettled (settled _
      (normalizeCondition_eq_some.mpr ⟨reason, type, reasonFound, typeFound, rfl⟩))

theorem listed_iff :
    (condition.type ∈ conditionTypes → condition.reason ∉ unlistedReasons) ↔
      (InVocabulary condition → condition.reason ∈ settledReasons) := by
  have table : ∀ reason ∈ conditionReasons, reason ∈ settledReasons ↔ reason ∉ unlistedReasons := by
    decide +kernel
  have abstract_ : ∀ reason ∈ unlistedReasons, reason ∈ conditionReasons := by decide +kernel
  constructor
  · exact fun listed within => (table _ within.2).mpr (listed within.1)
  · exact fun settled typed unlisted =>
      (table _ (abstract_ _ unlisted)).mp (settled ⟨typed, abstract_ _ unlisted⟩) unlisted

theorem normalized_settled_iff (translated : normalizeCondition condition = some normalized) :
    normalized.reason ∈ settledReasons ↔
      InVocabulary normalized ∧ normalizeCondition normalized = some normalized := by
  obtain ⟨reason, type, reasonFound, typeFound, rfl⟩ := normalizeCondition_eq_some.mp translated
  have abstractType : type ∈ conditionTypes := normalizeConditionType_into typeFound
  have typeKept : normalizeConditionType type = some type :=
    normalizeConditionType_of_mem abstractType
  rw [normalizeCondition_eq_self_iff]
  simp only [InVocabulary, normalizeReason_into reasonFound, abstractType, typeKept,
    true_and, and_true]

theorem InVocabulary.kept_iff (abstract_ : InVocabulary condition) :
    normalizeCondition condition = some condition ↔ condition.reason ∈ settledReasons := by
  rw [normalizeCondition_eq_self_iff, normalizeReason_of_mem abstract_.2]
  exact and_iff_left (normalizeConditionType_of_mem abstract_.1)

/-! ### Lists of conditions -/

/-- Normalization closes over the vocabulary at a list: the result is within it, what was
within it is kept, and a second normalization changes nothing. -/
structure NormalizesWithin (conditions : List Condition) : Prop where
  closed : ∀ condition ∈ normalizeConditions conditions, InVocabulary condition
  kept : ∀ condition ∈ conditions, InVocabulary condition →
    condition ∈ normalizeConditions conditions
  idempotent : normalizeConditions (normalizeConditions conditions) =
    normalizeConditions conditions

theorem mem_normalizeConditions {conditions : List Condition} :
    normalized ∈ normalizeConditions conditions ↔
      ∃ condition ∈ conditions, normalizeCondition condition = some normalized :=
  List.mem_filterMap

/-- A list is its own normalization exactly if each of its conditions is. -/
theorem normalizeConditions_eq_self_iff {conditions : List Condition} :
    normalizeConditions conditions = conditions ↔
      ∀ condition ∈ conditions, normalizeCondition condition = some condition := by
  have same := List.filterMap_eq_map_iff_forall_eq_some
    (f := normalizeCondition) (g := id) (l := conditions)
  rwa [List.map_id] at same

/-- Normalization closes over the abstract vocabulary exactly at the lists in which no
translated type comes with a lossy reason and no abstract type with an unlisted one. -/
theorem normalizeConditions_within_iff (conditions : List Condition) :
    NormalizesWithin conditions ↔ ∀ condition ∈ conditions, Settles condition := by
  constructor
  · intro within condition member
    have stable := normalizeConditions_eq_self_iff.mp within.idempotent
    refine ⟨lossless_iff.mpr ?_, listed_iff.mpr ?_⟩
    · intro normalized translated
      have result := mem_normalizeConditions.mpr ⟨condition, member, translated⟩
      exact (normalized_settled_iff translated).mpr
        ⟨within.closed normalized result, stable normalized result⟩
    · intro abstract_
      exact abstract_.kept_iff.mp (stable condition (within.kept condition member abstract_))
  · intro settles
    have result : ∀ normalized ∈ normalizeConditions conditions,
        InVocabulary normalized ∧ normalizeCondition normalized = some normalized := by
      intro normalized member
      obtain ⟨condition, source, translated⟩ := mem_normalizeConditions.mp member
      exact (normalized_settled_iff translated).mp
        (lossless_iff.mp (settles condition source).lossless normalized translated)
    constructor
    · exact fun normalized member => (result normalized member).1
    · intro condition member abstract_
      have kept := abstract_.kept_iff.mpr
        (listed_iff.mp (settles condition member).listed abstract_)
      exact mem_normalizeConditions.mpr ⟨condition, member, kept⟩
    · exact normalizeConditions_eq_self_iff.mpr fun normalized member =>
        (result normalized member).2

/-- The condition of a runtime that is up. -/
def availableCondition : Condition where
  type := "Available"
  status := .conditionTrue
  reason := "Ready"
  message := "up"
  lastTransitionTime := 1

/-- The condition of a runtime that waits for its resources. -/
def boundCondition : Condition where
  type := "Bound"
  status := .conditionFalse
  reason := "Waiting"
  message := "waiting for storage"
  lastTransitionTime := 1

/-- What a healthy runtime reports is normalized, and normalized again it is gone; what
was abstract already is dropped; and a waiting runtime's reason leaves the vocabulary. -/
theorem normalizeConditions_drops_succeeded :
    (normalizeConditions [availableCondition] ≠ [] ∧
      normalizeConditions (normalizeConditions [availableCondition]) = []) ∧
    (∃ condition, InVocabulary condition ∧ normalizeConditions [condition] = []) ∧
    ∃ normalized ∈ normalizeConditions [boundCondition], ¬ InVocabulary normalized := by
  refine ⟨by decide +kernel, ?_, ?_⟩
  · exact ⟨{ availableCondition with type := "Ready", reason := "Succeeded" },
      by decide +kernel⟩
  · exact ⟨{ boundCondition with type := "ClaimsReady", reason := "BindingPending" },
      by decide +kernel⟩

end ScoreOrchestrator.Controller
