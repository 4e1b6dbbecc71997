/-
Module: Proofs.TransitionTimes
Purpose: What the transition time of a stored condition means after any sequence of
  writes by the pipeline (SetCondition) and the mirror (setStatusCondition).
-/
import ScoreOrchestrator.Proofs.MirrorIdempotence

namespace ScoreOrchestrator.Controller

open Conditions

variable {conditions : List Condition}

/-! ### Writes -/

/-- A write to the conditions of a Workload, with the time at which it was made. -/
inductive ConditionWrite where
  | pipeline (now : Time) (type : String) (status : ConditionStatus)
      (reason message : String)
  | mirror (now : Time) (condition : Condition)

variable {write : ConditionWrite}

namespace ConditionWrite

def apply : ConditionWrite → List Condition → List Condition
  | .pipeline now type status reason message =>
    setCondition now type status reason message
  | .mirror now condition => setStatusCondition now condition

def now : ConditionWrite → Time
  | .pipeline now _ _ _ _ | .mirror now _ => now

def type : ConditionWrite → String
  | .pipeline _ type _ _ _ => type
  | .mirror _ condition => condition.type

def status : ConditionWrite → ConditionStatus
  | .pipeline _ _ status _ _ => status
  | .mirror _ condition => condition.status

def reason : ConditionWrite → String
  | .pipeline _ _ _ reason _ => reason
  | .mirror _ condition => condition.reason

/-- What the write does to a stored condition of its type. -/
def change : ConditionWrite → Condition → Condition
  | .pipeline now _ status reason message => changeCondition now status reason message
  | .mirror now condition => changeStatusCondition now condition

/-- The condition the write adds if there is none of its type.  The mirror keeps a time
that the runtime's condition carries. -/
def fresh : ConditionWrite → Condition
  | .pipeline now type status reason message =>
    { type, status, reason, message, lastTransitionTime := now }
  | .mirror now condition =>
    { condition with
      lastTransitionTime :=
        if condition.lastTransitionTime = 0 then now else condition.lastTransitionTime }

/-- The same write made by the other writer. -/
def swapped : ConditionWrite → ConditionWrite
  | .pipeline now type status reason message =>
    .mirror now { type, status, reason, message, lastTransitionTime := 0 }
  | .mirror now condition =>
    .pipeline now condition.type condition.status condition.reason condition.message

theorem apply_eq (write : ConditionWrite) :
    write.apply = upsertCondition write.type write.change write.fresh := by
  cases write <;> rfl

@[simp] theorem change_type (write : ConditionWrite) (condition : Condition) :
    (write.change condition).type = condition.type := by
  cases write with
  | pipeline => exact changeCondition_type ..
  | mirror => rfl

@[simp] theorem change_status (write : ConditionWrite) (condition : Condition) :
    (write.change condition).status = write.status := by
  cases write with
  | pipeline => exact changeCondition_status ..
  | mirror => rfl

theorem fresh_type (write : ConditionWrite) : write.fresh.type = write.type := by
  cases write <;> rfl

/-- A write changes the first condition of its type, or adds one. -/
theorem getCondition_apply_self (write : ConditionWrite) (conditions : List Condition) :
    getCondition (write.apply conditions) write.type =
      some (((getCondition conditions write.type).map write.change).getD write.fresh) := by
  rw [apply_eq]
  exact getCondition_upsertCondition_self _ write.change_type write.fresh_type _

theorem getCondition_apply_of_ne {type : String} (different : type ≠ write.type)
    (conditions : List Condition) :
    getCondition (write.apply conditions) type = getCondition conditions type := by
  rw [apply_eq]
  exact getCondition_upsertCondition_of_ne _ write.change_type write.fresh_type
    different _

end ConditionWrite

/-- The conditions after a sequence of writes. -/
def afterWrites (writes : List ConditionWrite) (conditions : List Condition) : List Condition :=
  writes.foldl (fun conditions write => write.apply conditions) conditions

/-- Something holds of each write of a sequence, at the conditions it meets. -/
def Along (holds : ConditionWrite → List Condition → Prop) :
    List ConditionWrite → List Condition → Prop
  | [], _ => True
  | write :: rest, conditions => holds write conditions ∧ Along holds rest (write.apply conditions)

theorem Along.mono {holds others : ConditionWrite → List Condition → Prop}
    {writes : List ConditionWrite} (along : Along holds writes conditions)
    (implies : ∀ write conditions, holds write conditions → others write conditions) :
    Along others writes conditions := by
  induction writes generalizing conditions with
  | nil => trivial
  | cons write rest ih => exact ⟨implies _ _ along.1, ih along.2⟩

/-! ### What a transition time should mean -/

/-- The write moves the transition time of a stored condition. -/
def MovesTime (write : ConditionWrite) (conditions : List Condition) (type : String) : Prop :=
  ∃ old new, getCondition conditions type = some old ∧
    getCondition (write.apply conditions) type = some new ∧
    new.lastTransitionTime ≠ old.lastTransitionTime

/-- The write changes the status of a stored condition. -/
def ChangesStatus (write : ConditionWrite) (conditions : List Condition) (type : String) : Prop :=
  ∃ old new, getCondition conditions type = some old ∧
    getCondition (write.apply conditions) type = some new ∧ new.status ≠ old.status

/-- Times move only with the status. -/
def Faithful (write : ConditionWrite) (conditions : List Condition) : Prop :=
  ∀ type, MovesTime write conditions type → ChangesStatus write conditions type

/-- The write leaves what the other writer would have left. -/
def Agrees (write : ConditionWrite) (conditions : List Condition) : Prop :=
  write.apply conditions = write.swapped.apply conditions

/-- When the write changes the status of a type or adds a condition of it, if it does. -/
def changeTime (write : ConditionWrite) (conditions : List Condition) (type : String) :
    Option Time :=
  if write.type = type then
    match getCondition conditions type with
    | none => some write.now
    | some old => if old.status = write.status then none else some write.now
  else none

/-- The time of the last status change of a type within a sequence, else `since`. -/
def lastChange (type : String) (since : Option Time) :
    List ConditionWrite → List Condition → Option Time
  | [], _ => since
  | write :: rest, conditions =>
    lastChange type ((changeTime write conditions type).or since) rest
      (write.apply conditions)

/-- The time under which a type is stored. -/
def transitionTime (conditions : List Condition) (type : String) : Option Time :=
  (getCondition conditions type).map Condition.lastTransitionTime

/-- Transition times have one meaning along a sequence of writes: they move only with the
status, the two writers agree, and each is the time of the last status change. -/
structure OneMeaning (writes : List ConditionWrite) (conditions : List Condition) : Prop where
  faithful : Along Faithful writes conditions
  agrees : Along Agrees writes conditions
  times : ∀ type, transitionTime (afterWrites writes conditions) type =
    lastChange type (transitionTime conditions type) writes conditions

/-- The writes that keep the meaning: a condition that is added has the time of the write,
and the reason of a stored condition whose status is repeated does not change, unless at the
very time the condition already has. -/
def Regular (write : ConditionWrite) (conditions : List Condition) : Prop :=
  match getCondition conditions write.type with
  | none => write.fresh.lastTransitionTime = write.now
  | some old => old.status = write.status → old.reason ≠ write.reason →
      old.lastTransitionTime = write.now

/-! ### One write -/

/-- The time a regular write leaves on a stored condition. -/
theorem change_time_of_regular {old : Condition} (regular : Regular write conditions)
    (found : getCondition conditions write.type = some old) :
    (write.change old).lastTransitionTime =
      if old.status = write.status then old.lastTransitionTime else write.now := by
  rw [Regular, found] at regular
  cases write with
  | mirror now condition =>
    by_cases same : old.status = condition.status <;>
      simp [ConditionWrite.change, ConditionWrite.status, ConditionWrite.now,
        changeStatusCondition, same]
  | pipeline now type status reason message =>
    simp only [ConditionWrite.change, ConditionWrite.status, ConditionWrite.now,
      changeCondition]
    by_cases sameStatus : old.status = status
    · by_cases sameReason : old.reason = reason
      · simp only [sameStatus, sameReason, ne_eq, not_true_eq_false, or_self, if_false, if_true]
        split <;> rfl
      · have time : old.lastTransitionTime = now := regular sameStatus sameReason
        simp [sameStatus, sameReason, time]
    · simp [sameStatus]

/-- A regular write stores the time of the last status change. -/
theorem transitionTime_step (regular : Regular write conditions) (type : String) :
    transitionTime (write.apply conditions) type =
      (changeTime write conditions type).or (transitionTime conditions type) := by
  unfold transitionTime changeTime
  split
  next named =>
    subst named
    rw [write.getCondition_apply_self]
    cases found : getCondition conditions write.type with
    | none =>
      rw [Regular, found] at regular
      exact congrArg some regular
    | some old =>
      have time := change_time_of_regular regular found
      by_cases same : old.status = write.status <;> simp_all
  next other =>
    rw [ConditionWrite.getCondition_apply_of_ne (Ne.symm other)]
    rfl

theorem Regular.faithful (regular : Regular write conditions) : Faithful write conditions := by
  rintro type ⟨old, new, found, foundNew, moved⟩
  refine ⟨old, new, found, foundNew, ?_⟩
  by_cases named : type = write.type
  · subst named
    rw [write.getCondition_apply_self, found] at foundNew
    obtain rfl : write.change old = new := Option.some.inj foundNew
    intro kept
    rw [write.change_status] at kept
    rw [change_time_of_regular regular found, if_pos kept.symm] at moved
    exact moved rfl
  · rw [ConditionWrite.getCondition_apply_of_ne named, found] at foundNew
    cases foundNew
    exact absurd rfl moved

/-- Two upserts agree exactly if they add the same or change what they meet alike. -/
theorem upsertCondition_eq_iff {type : String} {change other : Condition → Condition}
    {fresh added : Condition} :
    upsertCondition type change fresh conditions =
        upsertCondition type other added conditions ↔
      match getCondition conditions type with
      | none => fresh = added
      | some old => change old = other old := by
  induction conditions with
  | nil => simp [upsertCondition, getCondition]
  | cons first rest ih =>
    by_cases named : first.type = type
    · simp [upsertCondition, getCondition, named]
    · simpa [upsertCondition, getCondition, named] using ih

/-- The two changes differ in the time, when the reason changes and the status does not. -/
theorem changeCondition_eq_iff {now : Time} {condition old : Condition} :
    changeCondition now condition.status condition.reason condition.message old =
        changeStatusCondition now condition old ↔
      (old.status = condition.status → old.reason ≠ condition.reason →
        old.lastTransitionTime = now) := by
  obtain ⟨oldType, oldStatus, oldReason, oldMessage, oldTime⟩ := old
  by_cases sameStatus : oldStatus = condition.status
  · by_cases sameReason : oldReason = condition.reason
    · by_cases sameMessage : oldMessage = condition.message <;>
        simp [changeCondition, changeStatusCondition, sameStatus, sameReason,
          sameMessage]
    · simp [changeCondition, changeStatusCondition, sameStatus, sameReason, eq_comm]
  · simp [changeCondition, changeStatusCondition, sameStatus]

/-- The two writers agree exactly at the regular writes. -/
theorem agrees_iff (write : ConditionWrite) (conditions : List Condition) :
    Agrees write conditions ↔ Regular write conditions := by
  have same : write.swapped.type = write.type := by cases write <;> rfl
  unfold Agrees Regular
  rw [ConditionWrite.apply_eq, ConditionWrite.apply_eq, same]
  refine upsertCondition_eq_iff.trans ?_
  cases getCondition conditions write.type with
  | none =>
    cases write with
    | pipeline => exact iff_of_true rfl rfl
    | mirror now condition =>
      obtain ⟨type, status, reason, message, time⟩ := condition
      simp [ConditionWrite.swapped, ConditionWrite.fresh, ConditionWrite.now]
  | some old =>
    cases write with
    | pipeline now type status reason message =>
      exact @changeCondition_eq_iff now ⟨type, status, reason, message, 0⟩ old
    | mirror => exact eq_comm.trans changeCondition_eq_iff

/-! ### Whole sequences -/

/-- Along regular writes the stored time is that of the last status change. -/
theorem transitionTime_afterWrites {writes : List ConditionWrite}
    (regular : Along Regular writes conditions) (type : String) :
    transitionTime (afterWrites writes conditions) type =
      lastChange type (transitionTime conditions type) writes conditions := by
  induction writes generalizing conditions with
  | nil => rfl
  | cons write rest ih =>
    obtain ⟨now, later⟩ := regular
    have tail := ih later
    rw [transitionTime_step now type] at tail
    exact tail

/-- Transition times have one meaning along a sequence of writes of any length, by either
writer, exactly if each write is regular at the conditions it meets. -/
theorem oneMeaning_iff (writes : List ConditionWrite) (conditions : List Condition) :
    OneMeaning writes conditions ↔ Along Regular writes conditions := by
  constructor
  · intro meaning
    exact meaning.agrees.mono fun write conditions => (agrees_iff write conditions).mp
  · intro regular
    exact ⟨regular.mono fun _ _ => Regular.faithful,
      regular.mono fun write conditions => (agrees_iff write conditions).mpr,
      transitionTime_afterWrites regular⟩

/-- What the pipeline writes when it has to wait for claims, and when one has failed. -/
def pendingWrite : ConditionWrite :=
  .pipeline 1 claimsReady .conditionFalse reasonClaimPending
    messageClaimsProvisioning

def failedWrite : ConditionWrite :=
  .pipeline 2 claimsReady .conditionFalse reasonClaimFailed
    messageClaimsFailed

/-- A failed claim: ClaimsReady stays False and only its reason changes, and yet the
transition time moves; the mirror would have left it. -/
theorem transitionTime_moves_with_reason :
    transitionTime (afterWrites [pendingWrite, failedWrite] []) claimsReady = some 2 ∧
      lastChange claimsReady none [pendingWrite, failedWrite] [] = some 1 ∧
      transitionTime (afterWrites [pendingWrite, failedWrite.swapped] [])
        claimsReady = some 1 ∧ ¬ Along Faithful [pendingWrite, failedWrite] [] := by
  refine ⟨by decide +kernel, by decide +kernel, by decide +kernel, ?_⟩
  rintro ⟨_, faithful, _⟩
  obtain ⟨old, new, found, foundNew, differs⟩ :=
    faithful claimsReady ⟨_, _, rfl, rfl, by decide +kernel⟩
  cases found
  cases foundNew
  exact differs (by decide +kernel)

/-! ### The writes of the mirror -/

/-- The writes of one mirror run. -/
def mirrorWrites (clock : Nat → Time) : Nat → List Condition → List ConditionWrite
  | _, [] => []
  | reading, condition :: rest =>
    .mirror (clock reading) condition :: mirrorWrites clock (reading + 1) rest

theorem mirrorLoop_eq_afterWrites (clock : Nat → Time) (reading : Nat)
    (normalized conditions : List Condition) :
    (mirrorLoop clock reading normalized conditions).1 =
      afterWrites (mirrorWrites clock reading normalized) conditions := by
  induction normalized generalizing reading conditions with
  | nil => rfl
  | cons condition rest ih =>
    rw [mirrorLoop_fst_cons, ih]
    rfl

end ScoreOrchestrator.Controller
