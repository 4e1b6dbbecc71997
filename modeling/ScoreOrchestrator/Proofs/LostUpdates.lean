/-
Module: Proofs.LostUpdates
Purpose: The pipeline's part of a Workload status against the merge patches of the
  mirror, over every interleaving of the two.
-/
import ScoreOrchestrator.Api.Recording
import ScoreOrchestrator.Proofs.MirrorIdempotence

namespace ScoreOrchestrator.Controller

open Foundation Program
open Conditions (getCondition)

/-!
The pipeline replaces the whole status under a version check; the mirror sends the
difference between what it read and what it made of that, with the list of
conditions as one field and no version check.  The log beside the store keeps every
Workload whose status a pipeline run stored.
-/

variable {sound : List (EventOn (Recorded Workload)) →
    EventOn (Recorded Workload) → Prop}

/-- The conditions that are the pipeline's to report. -/
def pipelineTypes : List String := [Conditions.inputsValid, Conditions.claimsReady]

/-- The part of a Workload status that is the pipeline's to report. -/
structure PipelinePart where
  inputsValid : Option Condition
  claimsReady : Option Condition
  claims : List ClaimSummary
deriving DecidableEq

def pipelinePart (status : WorkloadStatus) : PipelinePart where
  inputsValid := getCondition status.conditions Conditions.inputsValid
  claimsReady := getCondition status.conditions Conditions.claimsReady
  claims := status.claims

/-! ### One patch -/

/-- The mirror made no change to the conditions it read, or what it made of them
agrees in the pipeline's conditions with what is stored. -/
def MirrorsOver (mirrored read stored : List Condition) : Prop :=
  mirrored = read ∨
    ∀ type ∈ pipelineTypes, getCondition mirrored type = getCondition stored type

/-- The patch of a mirror keeps the pipeline's part of whatever status is stored
exactly under that condition.  The claims are never in the patch. -/
theorem pipelinePart_mergeStatus_iff (settings : MirrorSettings) (workload : Workload)
    (exposure : WorkloadExposure) (stored : WorkloadStatus) :
    pipelinePart (mergeStatus .workload workload.status
        (mirrorStatus settings workload exposure).1.status stored) = pipelinePart stored ↔
    MirrorsOver (mirrorStatus settings workload exposure).1.status.conditions
      workload.status.conditions stored.conditions := by
  have claims : mergeField workload.status.claims
      (mirrorStatus settings workload exposure).1.status.claims stored.claims =
        stored.claims := if_pos rfl
  simp only [pipelinePart, mergeStatus, claims, PipelinePart.mk.injEq, and_true]
  unfold MirrorsOver mergeField pipelineTypes
  by_cases same : (mirrorStatus settings workload exposure).1.status.conditions =
      workload.status.conditions
  · simp [same]
  · simp [same]

/-- What the exposure publishes is all in what was read; or else, of InputsValid and of
ClaimsReady, nothing is published but what was read, and what was read is what is stored. -/
def Keeps (published read stored : List Condition) : Prop :=
  (∀ condition ∈ normalizeConditions published, Stored read condition) ∨
    ∀ type ∈ pipelineTypes,
      (∀ condition ∈ normalizeConditions published, condition.type = type →
        Stored read condition) ∧
      getCondition read type = getCondition stored type

instance (conditions : List Condition) (condition : Condition) :
    Decidable (Stored conditions condition) :=
  decidable_of_iff _ differs_eq_false_iff

instance (published read stored : List Condition) : Decidable (Keeps published read stored) :=
  inferInstanceAs (Decidable (_ ∨ ∀ type ∈ _, _ ∧ _))

/-- A type of which nothing new is published is left as it was. -/
theorem getCondition_mirrorLoop (clock : Nat → Time) (reading : Nat) {type : String}
    {normalized conditions : List Condition}
    (old : ∀ condition ∈ normalized, condition.type = type → Stored conditions condition) :
    getCondition (mirrorLoop clock reading normalized conditions).1 type =
      getCondition conditions type := by
  induction normalized generalizing reading conditions with
  | nil => rfl
  | cons condition rest ih =>
    obtain ⟨first, later⟩ := List.forall_mem_cons.mp old
    rw [mirrorLoop_fst_cons]
    by_cases named : condition.type = type
    · rw [setStatusCondition_of_stored (first named)]
      exact ih _ later
    · have other := getCondition_setStatusCondition_of_ne (clock reading) conditions (Ne.symm named)
      rw [ih, other]
      intro next member typed
      obtain ⟨existing, found, same⟩ := later next member typed
      refine ⟨existing, ?_, same⟩
      rw [typed] at found ⊢
      rw [other, found]

theorem mirrorLoop_of_stored (clock : Nat → Time) (reading : Nat)
    {normalized conditions : List Condition}
    (old : ∀ condition ∈ normalized, Stored conditions condition) :
    (mirrorLoop clock reading normalized conditions).1 = conditions := by
  induction normalized generalizing reading with
  | nil => rfl
  | cons condition rest ih =>
    obtain ⟨first, later⟩ := List.forall_mem_cons.mp old
    rw [mirrorLoop_fst_cons, setStatusCondition_of_stored first]
    exact ih _ later

theorem Keeps.mirrorsOver {published read stored : List Condition}
    (keeps : Keeps published read stored) (clock : Nat → Time) :
    MirrorsOver (mirrorConditions clock published read).1 read stored := by
  rcases keeps with old | kept
  · exact .inl (mirrorLoop_of_stored clock 0 old)
  · right
    intro type own
    obtain ⟨old, same⟩ := kept type own
    exact (getCondition_mirrorLoop clock 0 old).trans same

/-- Of an exposure that does not contradict itself, and publishes no new InputsValid or
ClaimsReady, only such patches keep the pipeline's part. -/
theorem keeps_iff {published read : List Condition} (agree : Agree (normalizeConditions published))
    (old : ∀ type ∈ pipelineTypes, ∀ condition ∈ normalizeConditions published,
      condition.type = type → Stored read condition) (clock : Nat → Time)
    (stored : List Condition) :
    Keeps published read stored ↔
      MirrorsOver (mirrorConditions clock published read).1 read stored := by
  refine ⟨fun keeps => keeps.mirrorsOver clock, ?_⟩
  rintro (same | kept)
  · left
    rw [← same]
    exact stored_mirrorLoop clock 0 agree
  · right
    intro type own
    refine ⟨old type own, ?_⟩
    rw [← kept type own]
    exact (getCondition_mirrorLoop clock 0 (old type own)).symm

/-! ### Runs with a log -/

/-- What is logged: each Workload whose status a pipeline run stored, as it was
sent. -/
def storedByPipeline : StatusWriter → Recorder Workload
  | .pipeline _ => fun _ request reply _ =>
    if reply.toOption.isSome then request.sentStatus .workload else none
  | .mirror _ => fun _ _ _ _ => none

/-- The last status that the pipeline stored for a Workload. -/
def lastStored (key : NamespacedName) (log : List Workload) : Option Workload :=
  log.find? fun workload => workload.key = key

/-- When a patch of a Workload status arrives, what is stored, what the mirror read of the
Workload and what the exposure it read publishes are such that the pipeline's conditions
are kept. -/
def PatchSound (history : List (EventOn (Recorded Workload)))
    (event : EventOn (Recorded Workload)) : Prop :=
  ∀ patch ∈ event.request.patchedStatus .workload,
    ∀ exposure ∈ readSoFar .workloadExposure history,
      ∀ stored ∈ event.before.store.find? .workload patch.1.key,
        Keeps exposure.status.conditions patch.1.status.conditions stored.status.conditions

instance (history : List (EventOn (Recorded Workload))) (event : EventOn (Recorded Workload)) :
    Decidable (PatchSound history event) :=
  inferInstanceAs (Decidable (∀ patch ∈ event.request.patchedStatus .workload,
    ∀ exposure ∈ readSoFar .workloadExposure history,
      ∀ stored ∈ event.before.store.find? .workload patch.1.key, Keeps _ _ _))

/-- The interleavings of any number of pipeline and mirror runs in which every call
of a mirror is as `sound` has it.  Everybody else leaves the status of a Workload
alone and creates none. -/
def lostUpdateRules
    (sound : List (EventOn (Recorded Workload)) → EventOn (Recorded Workload) → Prop) :
    Rules StatusWriter Call GoError (Recorded Workload) where
  service writer := recordingServer (storedByPipeline writer)
  starts := statusPrograms
  admits
    | .pipeline _, _, _ => True
    | .mirror _, history, event => sound history event
  environment before after :=
    before.store.KeepsEachStatus .workload after.store ∧ after.log = before.log

/-- Nothing has been stored yet. -/
def NothingStored (state : Recorded Workload) : Prop := state.log = []

/-- No update is lost: each stored Workload still has the pipeline's part of its
status as the pipeline last stored it. -/
def Unlost (state : Recorded Workload) : Prop :=
  ∀ workload ∈ (state.store.table .workload).rows, ∀ sent,
    lastStored workload.key state.log = some sent →
      pipelinePart workload.status = pipelinePart sent.status

/-! ### What each call does to it -/

namespace Unlost

variable {before after : Recorded Workload}

theorem of_keepsEachStatus (unlost : Unlost before)
    (kept : before.store.KeepsEachStatus .workload after.store) (log : after.log = before.log) :
    Unlost after := by
  intro workload member sent last
  obtain ⟨old, oldMember, key, status⟩ := kept workload member
  rw [log, ← key] at last
  rw [← status]
  exact unlost old oldMember sent last

/-- The pipeline stores a status. -/
theorem of_updateStatus (unlost : Unlost before) {sent value : Workload}
    (served : apiServer (.updateStatus .workload sent) before.store (.ok value) after.store)
    (log : after.log = sent :: before.log) : Unlost after := by
  obtain ⟨stored, written⟩ := apiServer_statusWritten served
  intro workload member other last
  have found := Store.find?_eq_some.mpr ⟨member, rfl⟩
  by_cases same : workload.key = sent.key
  · rw [same, written.finds] at found
    rw [log, lastStored, List.find?_cons_of_pos (by simp [same])] at last
    cases found
    cases last
    rw [written.status]
  · rw [written.frame _ same] at found
    rw [log, lastStored, List.find?_cons_of_neg (by simpa using Ne.symm same)] at last
    exact unlost workload (Store.mem_of_find? found) other last

/-- A mirror patches a status. -/
theorem of_patchStatus (unlost : Unlost before) {settings : MirrorSettings} {read : Workload}
    {exposure : WorkloadExposure} {reply : Except GoError Workload}
    (served : apiServer (.patchStatus .workload read
      (mirrorStatus settings read exposure).1) before.store reply after.store)
    (log : after.log = before.log)
    (sound : ∀ stored ∈ before.store.find? .workload read.key,
      Keeps exposure.status.conditions read.status.conditions stored.status.conditions) :
    Unlost after := by
  intro workload member sent last
  rw [log] at last
  rcases (apiServer_step served).of_mem member with old | ⟨_, ⟨stored, found, rfl⟩, rfl⟩
  · exact unlost workload old sent last
  · have kept := (pipelinePart_mergeStatus_iff settings read exposure
      stored.status).mpr ((sound stored found).mirrorsOver settings.clock)
    exact kept.trans (unlost stored (Store.mem_of_find? found) sent last)

end Unlost

/-- The calls of the pipeline: those that leave statuses alone, and the status
update. -/
def LeavesOrSends ⦃answer : Type⦄ (request : Call answer) : Prop :=
  request.leavesStatus .workload = true ∨ (request.sentStatus .workload).isSome

theorem pipelineCalls_leavesOrSends : PipelineCalls LeavesOrSends :=
  .of_leavesStatus (fun _ _ quiet => .inl quiet) fun _ _ _ _ => .inr rfl

theorem LeavesOrSends.unlost {worker : Nat} {answer : Type} {request : Call answer}
    (call : LeavesOrSends request) {before after : Recorded Workload}
    {reply : Except GoError answer}
    (served : recordingServer (storedByPipeline (.pipeline worker)) request before reply after)
    (unlost : Unlost before) : Unlost after := by
  obtain ⟨served, log⟩ := served
  rcases call with quiet | sends
  · have unlogged : after.log = before.log := by
      simpa [storedByPipeline, Call.sentStatus_of_leavesStatus quiet] using log
    exact unlost.of_keepsEachStatus (apiServer_keepsEachStatus quiet served) unlogged
  · obtain ⟨sent, sends⟩ := Option.isSome_iff_exists.mp sends
    obtain ⟨rfl, rfl⟩ := Call.eq_updateStatus sends
    cases reply with
    | ok value => exact unlost.of_updateStatus served log
    | error fault =>
      have same := apiServer_of_error served
      exact unlost.of_keepsEachStatus (.of_table (by rw [same])) log

/-! ### Every interleaving -/

/-- Every writer's terms. -/
def unlostContract (writer : StatusWriter) : Contract Call GoError (Recorded Workload) where
  service := recordingServer (storedByPipeline writer)
  rely _ _ := True
  rely_refl _ := trivial
  rely_trans _ _ := trivial
  admits := (lostUpdateRules PatchSound).admits writer
  guarantee _ event := Unlost event.before → Unlost event.after

theorem reconcileWorkload_unlost (worker : Nat) (settings : Settings) (key : NamespacedName)
    (state : Recorded Workload) :
    Safe (unlostContract (.pipeline worker)) (fun _ _ _ => True)
      (reconcileWorkload settings key).discard [] state := by
  have makes := (reconcileWorkload_makes pipelineCalls_leavesOrSends settings key).discard
  refine (Safe.of_makes makes ?_).mono fun _ _ _ _ => trivial
  intro answer request call history before reply after served _
  exact ⟨call.unlost served, trivial⟩

theorem unlost_of_read {worker : Nat} {answer : Type} {request : Call answer}
    {before after : Recorded Workload} {reply : Except GoError answer}
    (reads : request.isRead = true)
    (served : recordingServer (storedByPipeline (.mirror worker)) request before reply after)
    (unlost : Unlost before) : Unlost after :=
  unlost.of_keepsEachStatus (.of_table (by rw [apiServer_of_isRead reads served.1])) served.2

theorem patchMirrored_unlost {worker : Nat} {settings : MirrorSettings}
    {exposure : WorkloadExposure} {workload : Workload} {state : Recorded Workload}
    {history : List (EventOn (Recorded Workload))}
    (read : exposure ∈ readSoFar .workloadExposure history) :
    Safe (unlostContract (.mirror worker)) (fun _ _ _ => True)
      (patchMirrored settings exposure workload) history state := by
  unfold patchMirrored
  dsimp only
  split
  · exact fun _ _ => trivial
  · split
    · intro before _ reply after served sound
      refine ⟨fun unlost => ?_, ?_⟩
      · exact unlost.of_patchStatus served.1 served.2 (sound _ rfl exposure read)
      · cases reply <;> exact fun _ _ => trivial
    · exact fun _ _ => trivial

theorem reconcileExposure_unlost (worker : Nat) (settings : MirrorSettings) (key : NamespacedName)
    (state : Recorded Workload) :
    Safe (unlostContract (.mirror worker)) (fun _ _ _ => True)
      (reconcileExposure settings key) [] state := by
  intro before _ reply after served _
  refine ⟨unlost_of_read rfl served, ?_⟩
  cases reply with
  | error fault => exact fun _ _ => trivial
  | ok exposure =>
    intro before _ reply after served _
    refine ⟨unlost_of_read rfl served, ?_⟩
    cases reply with
    | error fault => exact fun _ _ => trivial
    | ok workload => exact patchMirrored_unlost (mem_readSoFar (.tail _ (.head _)) rfl)

/-- The rely/guarantee proof. -/
def lostUpdatesVerified : Verified (lostUpdateRules PatchSound) NothingStored where
  invariant := Unlost
  rely _ _ _ := True
  rely_refl _ _ := trivial
  rely_trans _ _ _ _ _ _ := trivial
  guarantee _ _ event := Unlost event.before → Unlost event.after
  invariant_initial empty := by
    intro workload _ sent last
    rw [empty] at last
    cases last
  invariant_environment unlost moved := unlost.of_keepsEachStatus moved.1 moved.2
  invariant_exchange unlost kept := kept unlost
  rely_environment _ _ := trivial
  rely_exchange _ _ _ := trivial
  safe {writer program state} starts _ := by
    cases writer with
    | pipeline worker =>
      obtain ⟨settings, key, rfl⟩ := starts
      exact reconcileWorkload_unlost worker settings key state
    | mirror worker =>
      obtain ⟨settings, key, rfl⟩ := starts
      exact (reconcileExposure_unlost worker settings key state).discard

/-- No lost updates: as long as every mirror patch is sound, the stored InputsValid,
ClaimsReady and claims of a Workload are those that the pipeline last stored, whatever
the interleaving. -/
theorem unlost_of_reachable {system : System StatusWriter Call GoError (Recorded Workload)}
    (reached : Reachable (lostUpdateRules PatchSound) NothingStored system) :
    ∀ workload ∈ (system.state.store.table .workload).rows, ∀ sent,
      lastStored workload.key system.state.log = some sent →
        pipelinePart workload.status = pipelinePart sent.status :=
  (lostUpdatesVerified.holds_of_reachable reached).invariant

/-! ### One pipeline run and one mirror run -/

/-- The cluster after an undisturbed run. -/
@[irreducible] def afterWriter (writer : StatusWriter) (program : Client Unit)
    (state : Recorded Workload) : Recorded Workload :=
  let ran := program.execute serve [] state.store
  { store := ran.2.2, log := recordLog (storedByPipeline writer) state.log ran.1 }

theorem runs_afterWriter (writer : StatusWriter) (program : Client Unit)
    (state : Recorded Workload) :
    program.Runs (recordingServer (storedByPipeline writer)) state
      (recordEvents (storedByPipeline writer) state.log (program.execute serve [] state.store).1)
      (program.execute serve [] state.store).2.1 (afterWriter writer program state) := by
  unfold afterWriter
  exact runs_recording _ (runs_execute serve program [] state.store) state.log

/-- The cluster of `exposedStore` before anybody has written to it. -/
@[irreducible] def exposedCluster : Recorded Workload where
  store := exposedStore [publishedTrue "Deployed" "Available"]
  log := []

theorem nothingStored_cluster : NothingStored exposedCluster := by
  unfold NothingStored exposedCluster
  rfl

/-- The pipeline run of the Workload. -/
def webPipeline : Client Unit := (reconcileWorkload quietSettings webKey).discard

/-- The mirror run of its exposure. -/
def webMirror : Client Unit := (reconcileExposure quietMirror webKey).discard

theorem webPipeline_starts : statusPrograms (.pipeline 0) webPipeline :=
  ⟨quietSettings, webKey, rfl⟩

theorem webMirror_starts : statusPrograms (.mirror 0) webMirror := ⟨quietMirror, webKey, rfl⟩

theorem reachable_afterWriter {system : System StatusWriter Call GoError (Recorded Workload)}
    (reached : Reachable (lostUpdateRules sound) NothingStored system) {writer : StatusWriter}
    {program : Client Unit} (starts : statusPrograms writer program)
    (idle : system.thread writer = none)
    (admitted : Admitted (lostUpdateRules sound) writer []
      (recordEvents (storedByPipeline writer) system.state.log
        (program.execute serve [] system.state.store).1)) :
    Reachable (lostUpdateRules sound) NothingStored
      { system with state := afterWriter writer program system.state } :=
  reached.run writer idle starts (runs_afterWriter writer program system.state) admitted

theorem admitted_pipeline (worker : Nat) (events : List (EventOn (Recorded Workload))) :
    Admitted (lostUpdateRules sound) (.pipeline worker) [] events :=
  .of_forall (fun _ _ => trivial) [] events

instance (worker : Nat) (history : List (EventOn (Recorded Workload)))
    (event : EventOn (Recorded Workload)) :
    Decidable ((lostUpdateRules PatchSound).admits (.mirror worker) history event) :=
  inferInstanceAs (Decidable (PatchSound history event))

/-- The mirror runs after the pipeline and adds a condition of its own. -/
theorem unlost_mirrored_after :
    let state := afterWriter (.mirror 0) webMirror
      (afterWriter (.pipeline 0) webPipeline exposedCluster)
    (lastStored webKey state.log).isSome = true ∧
      ∀ workload ∈ (state.store.table .workload).rows, ∀ sent,
        lastStored workload.key state.log = some sent →
          pipelinePart workload.status = pipelinePart sent.status := by
  intro state
  have initial : Reachable (lostUpdateRules PatchSound) NothingStored
      { state := exposedCluster, thread := fun _ => none } := .initial nothingStored_cluster
  have pipelined := reachable_afterWriter initial webPipeline_starts rfl
    (admitted_pipeline 0 _)
  have mirrored := reachable_afterWriter pipelined webMirror_starts rfl (by decide +kernel)
  exact ⟨by decide +kernel, unlost_of_reachable mirrored⟩

/-! ### A pipeline run inside a mirror run -/

/-- A mirror may have read both objects and still have its patch before it. -/
theorem reachable_mirrorRead {system : System StatusWriter Call GoError (Recorded Workload)}
    (reached : Reachable (lostUpdateRules sound) NothingStored system)
    (always : ∀ history event, sound history event) (worker : Nat)
    (idle : system.thread (.mirror worker) = none) (settings : MirrorSettings)
    {key : NamespacedName} {exposure : WorkloadExposure} {workload : Workload}
    (foundExposure : system.state.store.find? .workloadExposure key = some exposure)
    (foundWorkload : system.state.store.find? .workload (exposedWorkload exposure) =
      some workload) :
    ∃ history, Reachable (lostUpdateRules sound) NothingStored
      { system with
        thread := Function.update system.thread (.mirror worker)
          (some ⟨history, (patchMirrored settings exposure workload).discard⟩) } := by
  have gotExposure : recordingServer (storedByPipeline (.mirror worker))
      (.get .workloadExposure key) system.state (.ok exposure) system.state :=
    ⟨.inl (by simp [serve, foundExposure]), rfl⟩
  have gotWorkload : recordingServer (storedByPipeline (.mirror worker))
      (.get .workload (exposedWorkload exposure)) system.state (.ok workload)
      system.state :=
    ⟨.inl (by simp [serve, foundWorkload]), rfl⟩
  have started := System.Reachable.step reached
    (.start idle ⟨settings, key, rfl⟩)
  have first := System.Reachable.step started
    (.exchange (Function.update_self ..) gotExposure (always _ _))
  have second := System.Reachable.step first
    (.exchange (Function.update_self ..) gotWorkload (always _ _))
  simp only [Function.update_idem] at second
  exact ⟨_, second⟩

/-- The exposure that the mirror reads at the start. -/
@[irreducible] def readExposure : WorkloadExposure :=
  (exposedCluster.store.find? .workloadExposure webKey).getD
    { metadata := default, spec := default, status := default }

/-- The Workload that the mirror reads, before the pipeline runs. -/
@[irreducible] def readWorkload : Workload :=
  (exposedCluster.store.find? .workload webKey).getD
    { metadata := default, spec := {}, status := default }

/-- The rest of the mirror run. -/
def webPatch : Client Unit := (patchMirrored quietMirror readExposure readWorkload).discard

/-- A mirror reads the Workload, the pipeline stores its status, and the patch of the
mirror takes the pipeline's conditions away again. -/
theorem pipeline_update_lost :
    ∃ system, Reachable (lostUpdateRules fun _ _ => True) NothingStored system ∧
      ∃ workload ∈ (system.state.store.table .workload).rows, ∃ sent,
        lastStored workload.key system.state.log = some sent ∧
        getCondition sent.status.conditions Conditions.inputsValid ≠ none ∧
        getCondition sent.status.conditions Conditions.claimsReady ≠ none ∧
        getCondition workload.status.conditions Conditions.inputsValid = none ∧
        getCondition workload.status.conditions Conditions.claimsReady = none := by
  have initial : Reachable (lostUpdateRules fun _ _ => True) NothingStored
      { state := exposedCluster, thread := fun _ => none } := .initial nothingStored_cluster
  have foundExposure : exposedCluster.store.find? .workloadExposure webKey =
      some readExposure := by decide +kernel
  have foundWorkload : exposedCluster.store.find? .workload
      (exposedWorkload readExposure) = some readWorkload := by decide +kernel
  obtain ⟨history, reading⟩ := reachable_mirrorRead initial (fun _ _ => trivial) 0 rfl
    quietMirror foundExposure foundWorkload
  have pipelined := reachable_afterWriter reading webPipeline_starts
    (by simp) (admitted_pipeline 0 _)
  have patched := pipelined.continue (Function.update_self ..)
    (runs_afterWriter (.mirror 0) webPatch _)
    (.of_forall (fun _ _ => trivial) _ _)
  have lost : ((afterWriter (.mirror 0) webPatch
      (afterWriter (.pipeline 0) webPipeline exposedCluster)).store.table .workload).rows.any
        (fun workload => (lastStored workload.key (afterWriter (.mirror 0) webPatch
          (afterWriter (.pipeline 0) webPipeline exposedCluster)).log).any fun sent =>
            (getCondition sent.status.conditions Conditions.inputsValid ≠ none &&
              getCondition sent.status.conditions Conditions.claimsReady ≠ none) &&
            (getCondition workload.status.conditions Conditions.inputsValid = none &&
              getCondition workload.status.conditions Conditions.claimsReady = none)) =
      true := by decide +kernel
  obtain ⟨workload, member, checked⟩ := List.any_eq_true.mp lost
  obtain ⟨sent, last, checked⟩ := Option.any_eq_true _ _ |>.mp checked
  simp only [Bool.and_eq_true, decide_eq_true_eq] at checked
  obtain ⟨⟨inputs, claims⟩, noInputs, noClaims⟩ := checked
  exact ⟨_, patched, workload, member, sent, last, inputs, claims, noInputs, noClaims⟩

end ScoreOrchestrator.Controller
