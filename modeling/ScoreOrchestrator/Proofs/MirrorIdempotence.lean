/-
Module: Proofs.MirrorIdempotence
Purpose: What a second mirror run finds to do after one that has patched the Workload:
  nothing, exactly if the normalized conditions of each type agree.
-/
import ScoreOrchestrator.Api.MergePatch
import ScoreOrchestrator.Foundation.Traverse
import ScoreOrchestrator.Proofs.ReadyRule

namespace ScoreOrchestrator.Controller

open Foundation Program Conditions

variable {conditions : List Condition} {condition : Condition}

/-! ### The loop over the normalized conditions -/

/-- Two conditions that say the same, whenever they came to say it. -/
structure SameReport (first second : Condition) : Prop where
  status : first.status = second.status
  reason : first.reason = second.reason
  message : first.message = second.message

/-- The conditions of each type say the same. -/
def Agree (conditions : List Condition) : Prop :=
  ∀ first ∈ conditions, ∀ second ∈ conditions, first.type = second.type →
    SameReport first second

/-- The list already says what a condition would make it say. -/
def Stored (conditions : List Condition) (condition : Condition) : Prop :=
  ∃ existing, getCondition conditions condition.type = some existing ∧
    SameReport existing condition

theorem differs_eq_false_iff :
    differs (getCondition conditions condition.type) condition = false ↔
      Stored conditions condition := by
  unfold Stored
  cases getCondition conditions condition.type with
  | none => simp [differs]
  | some existing =>
    simp only [differs, Bool.or_eq_false_iff, decide_eq_false_iff_not, ne_eq, not_not,
      Option.some.injEq, exists_eq_left']
    constructor
    · rintro ⟨⟨status, reason⟩, message⟩
      exact ⟨status, reason, message⟩
    · intro same
      exact ⟨⟨same.status, same.reason⟩, same.message⟩

/-- Writing what the list says already changes nothing, not even a time. -/
theorem setStatusCondition_of_stored {now : Time} (stored : Stored conditions condition) :
    setStatusCondition now condition conditions = conditions := by
  obtain ⟨existing, found, same⟩ := stored
  unfold setStatusCondition
  induction conditions with
  | nil => cases found
  | cons first rest ih =>
    by_cases named : first.type = condition.type
    · obtain rfl : first = existing := by simpa [getCondition, named] using found
      rw [upsertCondition, if_pos named]
      simp [changeStatusCondition, ← same.status, ← same.reason, ← same.message]
    · have later : getCondition rest condition.type = some existing := by
        simpa [getCondition, named] using found
      simp [upsertCondition, named, ih later]

/-- A written condition is stored. -/
theorem stored_setStatusCondition (now : Time) (condition : Condition)
    (conditions : List Condition) :
    Stored (setStatusCondition now condition conditions) condition := by
  have found := getCondition_upsertCondition_self
    { condition with
      lastTransitionTime :=
        if condition.lastTransitionTime = 0 then now else condition.lastTransitionTime }
    (changeStatusCondition_type now condition) rfl conditions
  refine ⟨_, found, ?_⟩
  cases getCondition conditions condition.type with
  | none => exact ⟨rfl, rfl, rfl⟩
  | some existing => exact ⟨rfl, rfl, rfl⟩

/-- One step of the loop writes the condition, whether or not it looked first. -/
theorem mirrorLoop_fst_cons (clock : Nat → Time) (reading : Nat) (condition : Condition)
    (rest conditions : List Condition) :
    (mirrorLoop clock reading (condition :: rest) conditions).1 =
      (mirrorLoop clock (reading + 1) rest
        (setStatusCondition (clock reading) condition conditions)).1 := by
  rw [mirrorLoop]
  split
  · rfl
  next same =>
    have stored := differs_eq_false_iff.mp (Bool.eq_false_iff.mpr same)
    rw [setStatusCondition_of_stored stored]

/-- The loop updates nothing exactly if the list says everything already. -/
theorem mirrorLoop_updated (clock : Nat → Time) (reading : Nat)
    (normalized conditions : List Condition) :
    (mirrorLoop clock reading normalized conditions).2 = false ↔
      ∀ condition ∈ normalized, Stored conditions condition := by
  induction normalized generalizing reading with
  | nil => simp [mirrorLoop]
  | cons condition rest ih =>
    rw [List.forall_mem_cons, ← differs_eq_false_iff]
    unfold mirrorLoop
    cases differs (getCondition conditions condition.type) condition with
    | true => simp
    | false => simpa using ih (reading + 1)

/-- What one step keeps: a stored condition stays stored unless one of its type that says
otherwise is written. -/
theorem Stored.setStatusCondition {now : Time} {other : Condition}
    (stored : Stored conditions condition)
    (agrees : other.type = condition.type → SameReport other condition) :
    Stored (setStatusCondition now other conditions) condition := by
  by_cases named : other.type = condition.type
  · obtain ⟨existing, found, same⟩ := stored_setStatusCondition now other conditions
    have said := agrees named
    rw [named] at found
    exact ⟨existing, found, same.status.trans said.status, same.reason.trans said.reason,
      same.message.trans said.message⟩
  · obtain ⟨existing, found, same⟩ := stored
    refine ⟨existing, ?_, same⟩
    rw [getCondition_setStatusCondition_of_ne now conditions (Ne.symm named)]
    exact found

/-- What the whole loop keeps. -/
theorem Stored.mirrorLoop {normalized : List Condition} (stored : Stored conditions condition)
    (clock : Nat → Time) (reading : Nat)
    (agrees : ∀ other ∈ normalized, other.type = condition.type → SameReport other condition) :
    Stored (mirrorLoop clock reading normalized conditions).1 condition := by
  induction normalized generalizing reading conditions with
  | nil => exact stored
  | cons other rest ih =>
    obtain ⟨first, later⟩ := List.forall_mem_cons.mp agrees
    rw [mirrorLoop_fst_cons]
    exact ih (stored.setStatusCondition first) _ later

/-- After the loop the list says what each condition said, if those of a type agree. -/
theorem stored_mirrorLoop (clock : Nat → Time) (reading : Nat) {normalized : List Condition}
    (agree : Agree normalized) :
    ∀ condition ∈ normalized,
      Stored (mirrorLoop clock reading normalized conditions).1 condition := by
  induction normalized generalizing reading conditions with
  | nil => nofun
  | cons first rest ih =>
    rw [mirrorLoop_fst_cons]
    intro condition member
    rcases List.mem_cons.mp member with rfl | later
    · -- the tail can only repeat what its head has said
      apply (stored_setStatusCondition (clock reading) condition conditions).mirrorLoop
      intro other among
      exact agree other (.tail _ among) condition (.head _)
    · have tail : Agree rest := fun one among other amongst =>
        agree one (.tail _ among) other (.tail _ amongst)
      exact ih (reading + 1) tail condition later

/-- A second loop over the same conditions updates nothing exactly if they agree. -/
theorem mirrorLoop_again (clock later : Nat → Time) (reading again : Nat)
    (normalized conditions : List Condition) :
    (mirrorLoop later again normalized
      (mirrorLoop clock reading normalized conditions).1).2 = false ↔ Agree normalized := by
  rw [mirrorLoop_updated]
  constructor
  · intro stored first among second amongst named
    obtain ⟨one, found, same⟩ := stored first among
    obtain ⟨other, foundOther, sameOther⟩ := stored second amongst
    rw [named, foundOther] at found
    cases found
    exact ⟨same.status.symm.trans sameOther.status, same.reason.symm.trans sameOther.reason,
      same.message.symm.trans sameOther.message⟩
  · exact stored_mirrorLoop clock reading

/-! ### A run that patches -/

section

variable {settings : MirrorSettings} {key : NamespacedName} {before after : Store}
  {exposure : WorkloadExposure} {workload next : Workload}

/-- Laid over a status that carries the first run's result, the exposure updates nothing
exactly if its normalized conditions agree. -/
theorem mirrorStatus_again (clock : Nat → Time)
    (mirrored : next.status = (mirrorStatus settings workload exposure).1.status) :
    (mirrorStatus { settings with clock } next exposure).2 = false ↔
      Agree (normalizeConditions exposure.status.conditions) := by
  have endpoint : next.status.endpoint = newEndpoint { settings with clock } exposure := by
    rw [mirrored]
    rfl
  have conditions : next.status.conditions = (mirrorLoop settings.clock 0
      (normalizeConditions exposure.status.conditions) workload.status.conditions).1 := by
    rw [mirrored]
    rfl
  rw [← mirrorLoop_again settings.clock clock 0 0 _ workload.status.conditions,
    ← conditions]
  simp [mirrorStatus, mirrorConditions, endpoint]

/-- What a mirror run that has patched found and left behind. -/
structure Patches (settings : MirrorSettings) (key : NamespacedName) (before after : Store)
    (exposure : WorkloadExposure) (workload next : Workload) : Prop where
  read : before.find? .workloadExposure key = some exposure
  readWorkload : before.find? .workload (exposedWorkload exposure) = some workload
  current : isOutdated exposure workload = false
  exposureKept : after.find? .workloadExposure key = some exposure
  stored : after.find? .workload (exposedWorkload exposure) = some next
  status : next.status = (mirrorStatus settings workload exposure).1.status
  stillCurrent : isOutdated exposure next = false

/-- A successful status patch stores the mirrored status and leaves identity and
generation alone. -/
theorem patches_of_patchStatus {updated : Workload}
    (read : before.find? .workloadExposure key = some exposure)
    (readWorkload : before.find? .workload (exposedWorkload exposure) = some workload)
    (current : isOutdated exposure workload = false)
    (served : apiServer (.patchStatus .workload workload
      (mirrorStatus settings workload exposure).1) before (.ok updated) after) :
    ∃ next, Patches settings key before after exposure workload next := by
  have named : workload.key = exposedWorkload exposure := Store.key_of_find? readWorkload
  have keys : (mirrorStatus settings workload exposure).1.key = exposedWorkload exposure := named
  obtain ⟨revision, stored⟩ := apiServer_statusPatched (by rw [keys]; exact readWorkload)
    served
  rw [keys] at stored
  have exposures : after.table .workloadExposure = before.table .workloadExposure :=
    apiServer_table_of_leaves (by exact .inr nofun) served
  refine ⟨_, read, readWorkload, current, ?_, stored, ?_, current⟩
  · exact (Store.find?_of_table exposures).trans read
  · simp only [Store.stamp, Resource.statusPatchedBy, mergeStatus, mergeField_self]

theorem patchMirrored_patches {events : List ApiEvent} {result : ReconcileResult}
    (read : before.find? .workloadExposure key = some exposure)
    (readWorkload : before.find? .workload (exposedWorkload exposure) = some workload)
    (run : (patchMirrored settings exposure workload).Runs apiServer before events
      (.returned (.ok result)) after)
    (patched : ∃ event ∈ events, event.request.isStatusPatch = true) :
    ∃ next, Patches settings key before after exposure workload next := by
  obtain ⟨event, member, _⟩ := patched
  simp only [patchMirrored] at run
  split at run
  · rw [run.events_of_done] at member
    cases member
  next current =>
    split at run
    · obtain ⟨reply, _, _, rfl, served, rest⟩ := run.of_call
      cases reply with
      | error fault => cases rest
      | ok updated =>
        cases rest
        exact patches_of_patchStatus read readWorkload (Bool.eq_false_iff.mpr current)
          served
    · rw [run.events_of_done] at member
      cases member

/-- A successful mirror run with a patch among its calls. -/
theorem reconcileExposure_patches {events : List ApiEvent} {result : ReconcileResult}
    (run : (reconcileExposure settings key).Runs apiServer before events
      (.returned (.ok result)) after)
    (patched : ∃ event ∈ events, event.request.isStatusPatch = true) :
    ∃ exposure workload next, Patches settings key before after exposure workload next := by
  obtain ⟨event, member, isPatch⟩ := patched
  have later : ∀ {first : ApiEvent} {rest},
      event ∈ first :: rest → first.request.isRead = true → event ∈ rest := by
    intro first rest member reads
    rcases List.mem_cons.mp member with rfl | later
    · rw [Call.isStatusPatch_of_isRead reads] at isPatch
      cases isPatch
    · exact later
  obtain ⟨reply, _, events, rfl, served, rest⟩ := run.of_call
  have inRest := later member rfl
  cases reply with
  | error fault =>
    rw [Runs.events_of_done rest] at inRest
    cases inRest
  | ok exposure =>
    obtain ⟨read, rfl⟩ := apiServer_get_ok served
    cases rest with
    | @call _ _ _ _ _ _ reply events _ served rest =>
      have inLast := later inRest rfl
      cases reply with
      | error fault =>
        rw [Runs.events_of_done rest] at inLast
        cases inLast
      | ok workload =>
        obtain ⟨readWorkload, rfl⟩ := apiServer_get_ok served
        obtain ⟨next, patches⟩ := patchMirrored_patches read readWorkload rest
          ⟨event, inLast, isPatch⟩
        exact ⟨exposure, workload, next, patches⟩

/-- After a patch a further run only reads exactly if it has nothing to update. -/
theorem Patches.onlyReads_iff (patches : Patches settings key before after exposure workload next)
    (later : MirrorSettings) :
    OnlyReads apiServer (reconcileExposure later key) after ↔
      (mirrorStatus later next exposure).2 = false := by
  have outdated : ¬ isOutdated exposure next = true := Bool.eq_false_iff.mp
    patches.stillCurrent
  constructor
  · intro only
    by_contra updated
    rw [Bool.not_eq_false] at updated
    -- the run as far as the patch
    have patch : ∃ event final, event.request.isRead = false ∧
        (patchMirrored later exposure next).Runs apiServer after [event] .interrupted final := by
      simp only [patchMirrored, if_neg outdated, updated, if_true]
      exact ⟨_, _, rfl, .call (.inl rfl) (.interrupted _ _)⟩
    obtain ⟨event, final, writes, patch⟩ := patch
    have run : (reconcileExposure later key).Runs apiServer after _ .interrupted final :=
      .call (.inl (serve_get_some patches.exposureKept))
        (.call (.inl (serve_get_some patches.stored)) patch)
    have reads := (only _ _ _ run).1 event (.tail _ (.tail _ (.head _)))
    rw [writes] at reads
    cases reads
  · intro same
    refine .read rfl fun reply _ served => ⟨apiServer_of_isRead rfl served, ?_⟩
    cases reply with
    | error fault => exact .done _
    | ok read =>
      obtain ⟨found, _⟩ := apiServer_get_ok served
      obtain rfl := Option.some.inj (found.symm.trans patches.exposureKept)
      refine .read rfl fun reply _ served => ⟨apiServer_of_isRead rfl served, ?_⟩
      cases reply with
      | error fault => exact .done _
      | ok workload =>
        obtain ⟨found, _⟩ := apiServer_get_ok served
        obtain rfl := Option.some.inj (found.symm.trans patches.stored)
        simp only [done_bind, patchMirrored, if_neg outdated, same,
          Bool.false_eq_true, if_false]
        exact .done _

/-- Mirroring again: after a run that has patched, a second run over the same exposure, at
whatever time, has nothing to update, and so issues no write and moves no time, exactly if
the normalized conditions of each type agree. -/
theorem reconcileExposure_again_iff {events : List ApiEvent} {result : ReconcileResult}
    (run : (reconcileExposure settings key).Runs apiServer before events
      (.returned (.ok result)) after)
    (patched : ∃ event ∈ events, event.request.isStatusPatch = true) (clock : Nat → Time) :
    ∃ exposure next, before.find? .workloadExposure key = some exposure ∧
      after.find? .workloadExposure key = some exposure ∧
      after.find? .workload (exposedWorkload exposure) = some next ∧
      ((mirrorStatus { settings with clock } next exposure).2 = false ↔
        Agree (normalizeConditions exposure.status.conditions)) ∧
      (OnlyReads apiServer (reconcileExposure { settings with clock } key) after ↔
        Agree (normalizeConditions exposure.status.conditions)) := by
  obtain ⟨exposure, workload, next, patches⟩ := reconcileExposure_patches run patched
  have again := mirrorStatus_again clock patches.status
  exact ⟨exposure, next, patches.read, patches.exposureKept, patches.stored, again,
    (patches.onlyReads_iff _).trans again⟩

end

/-! ### A runtime whose conditions agree, and one whose conditions do not -/

/-- The mirror at a time. -/
def mirrorAt (now : Time) : MirrorSettings := { quietMirror with clock := fun _ => now }

/-- A first mirror run over an exposure with these conditions, at time two. -/
def firstMirrorRun (published : List Condition) :
    List ApiEvent × Outcome (Except GoError ReconcileResult) × Store :=
  (reconcileExposure (mirrorAt 2) webKey).execute serve [] (exposedStore published)

/-- The cluster after it.  Only the kernel evaluates it. -/
@[irreducible] def mirroredOnce (published : List Condition) : Store :=
  (firstMirrorRun published).2.2

/-- A further run from there, at time three. -/
def secondMirrorRun (published : List Condition) :
    List ApiEvent × Outcome (Except GoError ReconcileResult) × Store :=
  (reconcileExposure (mirrorAt 3) webKey).execute serve [] (mirroredOnce published)

def hasPatched (events : List ApiEvent) : Bool :=
  events.any fun event => event.request.isStatusPatch

def transitionTimes (store : Store) : Option (List Time) :=
  (store.find? .workload webKey).map fun workload =>
    workload.status.conditions.map fun condition => condition.lastTransitionTime

/-- Two conditions of the runtime that both say it is up. -/
def agreeingConditions : List Condition :=
  [publishedTrue "Available" "Ready", publishedTrue "Progressing" "Active"]

theorem agree_normalized_agreeingConditions : Agree (normalizeConditions agreeingConditions) := by
  have same : ∀ condition ∈ normalizeConditions agreeingConditions,
      condition.status = .conditionTrue ∧ condition.reason = "Succeeded" ∧
        condition.message = "" := by
    decide +kernel
  intro first among second amongst _
  obtain ⟨status, reason, message⟩ := same first among
  obtain ⟨otherStatus, otherReason, otherMessage⟩ := same second amongst
  exact ⟨status.trans otherStatus.symm, reason.trans otherReason.symm,
    message.trans otherMessage.symm⟩

theorem reconcileExposure_again_agreeing :
    hasPatched (firstMirrorRun agreeingConditions).1 = true ∧
      OnlyReads apiServer (reconcileExposure (mirrorAt 3) webKey)
        (mirroredOnce agreeingConditions) := by
  have patched : hasPatched (firstMirrorRun agreeingConditions).1 = true := by
    decide +kernel
  have returned : (firstMirrorRun agreeingConditions).2.1.passes
      (fun returned => returned.toOption.isSome) = true := by
    decide +kernel
  refine ⟨patched, ?_⟩
  obtain ⟨value, outcome, succeeded⟩ := Outcome.exists_of_passes returned
  obtain ⟨result, rfl⟩ := exists_of_toOption succeeded
  have run := runs_execute serve (reconcileExposure (mirrorAt 2) webKey) []
    (exposedStore agreeingConditions)
  unfold firstMirrorRun at outcome
  rw [outcome] at run
  obtain ⟨exposure, next, read, _, _, _, again⟩ := reconcileExposure_again_iff run
    (List.any_eq_true.mp patched) fun _ => 3
  have conditions : ((exposedStore agreeingConditions).find? .workloadExposure webKey).map
      (fun exposure => exposure.status.conditions) = some agreeingConditions := by
    decide +kernel
  rw [read] at conditions
  have agree := agree_normalized_agreeingConditions
  rw [← Option.some.inj conditions] at agree
  unfold mirroredOnce firstMirrorRun
  exact again.mpr agree

/-- A runtime that is up but still progressing: two types that are one after
normalization. -/
def progressingConditions : List Condition :=
  [publishedTrue "Available" "Ready",
    { type := "Progressing"
      status := .conditionFalse
      reason := "Waiting"
      message := ""
      lastTransitionTime := 1 }]

/-- Of its two conditions each run writes one over the other: the second run, with
exposure and Workload unchanged, patches again and moves the transition time. -/
theorem reconcileExposure_flaps :
    (progressingConditions.map fun condition => condition.type).Nodup ∧
      hasPatched (firstMirrorRun progressingConditions).1 = true ∧
      hasPatched (secondMirrorRun progressingConditions).1 = true ∧
      transitionTimes (mirroredOnce progressingConditions) = some [2] ∧
      transitionTimes (secondMirrorRun progressingConditions).2.2 = some [3] := by
  decide +kernel

end ScoreOrchestrator.Controller
