/-
Module: Proofs.StaleEndpoints
Purpose: Whether the endpoint that a mirror copies into a Workload was published for
  this incarnation and generation of it, over every interleaving of registrar,
  runtime and mirror runs with edits and re-creations of Workloads.
-/
import ScoreOrchestrator.Api.Recording
import ScoreOrchestrator.Proofs.ReadyRule

namespace ScoreOrchestrator.Controller

open Foundation Program

/-!
The mirror compares the Workload with the spec of the exposure.  The spec is the
registrar's, the status it is meant to qualify is the runtime's, and the one is
refreshed without the other.  The log beside the store keeps every exposure as a
runtime published it, so with the spec that it carried at that moment.
-/

variable {state : Recorded WorkloadExposure} {exposure : WorkloadExposure}

/-- What the runtime last published under a key. -/
def lastPublished (key : NamespacedName) (log : List WorkloadExposure) : Option WorkloadExposure :=
  log.find? fun exposure => exposure.key = key

/-- The exposure was for this incarnation of the Workload, and for a generation no
earlier than this one. -/
def MeantFor (exposure : WorkloadExposure) (workload : Workload) : Prop :=
  exposure.spec.workloadRef.uid = workload.metadata.uid ∧
    workload.metadata.generation ≤ exposure.spec.observedWorkloadGeneration

/-- The exposures that a run has read, each with the cluster it was read in. -/
def exposuresRead (history : List (EventOn (Recorded WorkloadExposure))) :
    List (Recorded WorkloadExposure × WorkloadExposure) :=
  history.filterMap fun event =>
    (event.request.fetched .workloadExposure event.reply).map fun exposure =>
      (event.before, exposure)

/-! ### The interleavings -/

/-- Any number of workers of each kind. -/
inductive ExposureActor where
  | registrar (worker : Nat)
  | runtime (worker : Nat)
  | mirror (worker : Nat)
deriving DecidableEq, Repr

/-- What a runtime may call: it reads, and updates the status of exposures. -/
def RuntimeCall ⦃answer : Type⦄ (request : Call answer) : Prop :=
  request.isRead = true ∨ (request.sentStatus .workloadExposure).isSome = true

/-- The programs each worker may start; the runtime's are its own affair. -/
def exposurePrograms : ExposureActor → Client Unit → Prop
  | .registrar _, program =>
    ∃ runtimeClass key, program = (registerExposure runtimeClass key).discard
  | .runtime _, program => program.Makes RuntimeCall
  | .mirror _, program => ∃ settings key, program = (reconcileExposure settings key).discard

/-- The exposure that the server stored with a new status. -/
def publishedBy {answer : Type} :
    Call answer → Except GoError answer → Option WorkloadExposure
  | .updateStatus .workloadExposure _ => fun reply => reply.toOption
  | _ => fun _ => none

/-- What is logged: each exposure that a runtime published. -/
def publications : ExposureActor → Recorder WorkloadExposure
  | .runtime _ => fun _ request reply _ => publishedBy request reply
  | .registrar _ => fun _ _ _ _ => none
  | .mirror _ => fun _ _ _ _ => none

/-- Everybody else edits, deletes and creates Workloads, to which the server gives
UIDs, and deletes exposures. -/
structure UsersWrite (before after : Recorded WorkloadExposure) : Prop where
  log : after.log = before.log
  uids : ∀ workload ∈ (after.store.table .workload).rows, workload.metadata.uid ≠ ""
  exposures : (after.store.table .workloadExposure).rows ⊆
    (before.store.table .workloadExposure).rows

/-- The interleavings in which every call of a mirror is as `considered` has it. -/
def exposureRules (considered : List (EventOn (Recorded WorkloadExposure)) →
      EventOn (Recorded WorkloadExposure) → Prop) :
    Rules ExposureActor Call GoError (Recorded WorkloadExposure) where
  service actor := recordingServer (publications actor)
  starts := exposurePrograms
  admits
    | .mirror _, history, event => considered history event
    | .registrar _, _, _ => True
    | .runtime _, _, _ => True
  environment := UsersWrite

/-- Workloads have UIDs, and there are no exposures yet. -/
structure NoExposures (state : Recorded WorkloadExposure) : Prop where
  uids : ∀ workload ∈ (state.store.table .workload).rows, workload.metadata.uid ≠ ""
  exposures : (state.store.table .workloadExposure).rows = []

/-! ### The condition -/

/-- The registrar has not moved the exposure on since it was last published. -/
def Unrefreshed (state : Recorded WorkloadExposure) (exposure : WorkloadExposure) : Prop :=
  ∀ published ∈ lastPublished exposure.key state.log,
    published.spec.workloadRef.uid = exposure.spec.workloadRef.uid ∧
      exposure.spec.observedWorkloadGeneration ≤
        published.spec.observedWorkloadGeneration

/-- Whenever a mirror patches a Workload, the exposure that it read had not been
refreshed since it was published, and the Workload is still the one it read, at the
same generation. -/
def CopiedInOrder (history : List (EventOn (Recorded WorkloadExposure)))
    (event : EventOn (Recorded WorkloadExposure)) : Prop :=
  ∀ patch ∈ event.request.patchedStatus .workload,
    (∀ read ∈ exposuresRead history, Unrefreshed read.1 read.2) ∧
      ∀ stored ∈ event.before.store.find? .workload patch.2.key,
        stored.metadata.uid = patch.1.metadata.uid ∧
          stored.metadata.generation ≤ patch.1.metadata.generation

instance (state : Recorded WorkloadExposure) (exposure : WorkloadExposure) :
    Decidable (Unrefreshed state exposure) :=
  inferInstanceAs (Decidable (∀ published ∈ lastPublished exposure.key state.log, _ ∧ _))

instance (history : List (EventOn (Recorded WorkloadExposure)))
    (event : EventOn (Recorded WorkloadExposure)) : Decidable (CopiedInOrder history event) :=
  inferInstanceAs (Decidable (∀ patch ∈ event.request.patchedStatus .workload,
    (∀ read ∈ exposuresRead history, Unrefreshed read.1 read.2) ∧
      ∀ stored ∈ event.before.store.find? .workload patch.2.key, _ ∧ _))

/-! ### The invariant -/

/-- UIDs are everywhere, and the status of an exposure is what was last published for
it. -/
structure Attributed (state : Recorded WorkloadExposure) : Prop where
  workloads : ∀ workload ∈ (state.store.table .workload).rows,
    workload.metadata.uid ≠ ""
  exposures : ∀ exposure ∈ (state.store.table .workloadExposure).rows,
    exposure.spec.workloadRef.uid ≠ ""
  published : ∀ exposure ∈ (state.store.table .workloadExposure).rows,
    exposure.status = default ∨ ∃ published,
      lastPublished exposure.key state.log = some published ∧
        published.status = exposure.status

theorem Attributed.of_noExposures (fresh : NoExposures state) : Attributed state where
  workloads := fresh.uids
  exposures exposure member := by
    rw [fresh.exposures] at member
    cases member
  published exposure member := by
    rw [fresh.exposures] at member
    cases member

namespace Attributed

variable {before after : Recorded WorkloadExposure}

theorem of_users (attributed : Attributed before) (wrote : UsersWrite before after) :
    Attributed after where
  workloads := wrote.uids
  exposures exposure member := attributed.exposures exposure (wrote.exposures member)
  published exposure member := by
    rw [wrote.log]
    exact attributed.published exposure (wrote.exposures member)

/-- A call that leaves Workloads and the log alone: each exposure has a UID and is as
it was, or is new, or has the status last published. -/
theorem of_exposures (attributed : Attributed before)
    (workloads : after.store.table .workload = before.store.table .workload)
    (log : after.log = before.log)
    (exposures : ∀ exposure ∈ (after.store.table .workloadExposure).rows,
      exposure.spec.workloadRef.uid ≠ "" ∧ (exposure.status = default ∨
        ∃ old ∈ (before.store.table .workloadExposure).rows,
          old.key = exposure.key ∧ old.status = exposure.status)) : Attributed after where
  workloads := by
    rw [workloads]
    exact attributed.workloads
  exposures exposure member := (exposures exposure member).1
  published exposure member := by
    rcases (exposures exposure member).2 with fresh | ⟨old, oldMember, key, status⟩
    · exact .inl fresh
    · rw [log, ← key, ← status]
      exact attributed.published old oldMember

theorem of_same (attributed : Attributed before) (store : after.store = before.store)
    (log : after.log = before.log) : Attributed after := by
  apply attributed.of_exposures (by rw [store]) log
  intro exposure member
  rw [store] at member
  exact ⟨attributed.exposures exposure member, .inr ⟨exposure, member, rfl, rfl⟩⟩

/-- The runtime publishes. -/
theorem of_published (attributed : Attributed before) {sent value : WorkloadExposure}
    (served : apiServer (.updateStatus .workloadExposure sent) before.store (.ok value) after.store)
    (log : after.log = value :: before.log) : Attributed after := by
  obtain ⟨stored, written⟩ := apiServer_statusWritten served
  have valueKey : value.key = sent.key := Store.key_of_find? written.finds
  have workloads : after.store.table .workload = before.store.table .workload :=
    apiServer_table_of_leaves (by exact .inr nofun) served
  have cases : ∀ exposure ∈ (after.store.table .workloadExposure).rows,
      exposure = value ∨
        exposure ∈ (before.store.table .workloadExposure).rows ∧
          exposure.key ≠ value.key := by
    intro exposure member
    have found := Store.find?_eq_some.mpr ⟨member, rfl⟩
    by_cases same : exposure.key = sent.key
    · rw [same, written.finds] at found
      exact .inl (Option.some.inj found).symm
    · rw [written.frame _ same] at found
      exact .inr ⟨Store.mem_of_find? found, valueKey ▸ same⟩
  refine ⟨workloads ▸ attributed.workloads, ?_, ?_⟩
  · intro exposure member
    rcases cases exposure member with rfl | ⟨old, _⟩
    · rw [written.spec]
      exact attributed.exposures stored (Store.mem_of_find? written.found)
    · exact attributed.exposures exposure old
  · intro exposure member
    rw [log, lastPublished]
    rcases cases exposure member with rfl | ⟨old, different⟩
    · exact .inr ⟨exposure, List.find?_cons_of_pos (by simp), rfl⟩
    · rw [List.find?_cons_of_neg (by simpa using different.symm)]
      exact attributed.published exposure old

/-- A mirror patches a Workload. -/
theorem of_patchStatus (attributed : Attributed before) {base sent : Workload}
    {reply : Except GoError Workload}
    (served : apiServer (.patchStatus .workload base sent) before.store reply after.store)
    (log : after.log = before.log) : Attributed after := by
  have exposures : after.store.table .workloadExposure = before.store.table .workloadExposure :=
    apiServer_table_of_leaves (by exact .inr nofun) served
  refine ⟨fun workload member => ?_, exposures ▸ attributed.exposures,
    exposures ▸ log ▸ attributed.published⟩
  rcases (apiServer_step served).of_mem member with old | ⟨_, ⟨stored, found, rfl⟩, rfl⟩
  · exact attributed.workloads workload old
  · exact attributed.workloads stored (Store.mem_of_find? found)

end Attributed

/-! ### What each program does to it -/

/-- The calls of a registrar that has read a Workload with a UID. -/
def Registers ⦃answer : Type⦄ : Call answer → Prop
  | .get _ _ => True
  | .list _ _ => True
  | .create .workloadExposure sent => sent.spec.workloadRef.uid ≠ ""
  | .patch .workloadExposure _ sent => sent.spec.workloadRef.uid ≠ ""
  | _ => False

theorem Registers.attributed {answer : Type} {request : Call answer} (call : Registers request)
    {worker : Nat} {before after : Recorded WorkloadExposure} {reply : Except GoError answer}
    (served : recordingServer (publications (.registrar worker)) request before reply after)
    (attributed : Attributed before) : Attributed after := by
  obtain ⟨served, log⟩ := served
  cases request with
  | get kind key => exact attributed.of_same (apiServer_of_isRead rfl served) log
  | list kind selector => exact attributed.of_same (apiServer_of_isRead rfl served) log
  | create kind sent =>
    cases kind with
    | workloadExposure =>
      have workloads : after.store.table .workload = before.store.table .workload :=
        apiServer_table_of_leaves (by exact .inr nofun) served
      apply attributed.of_exposures workloads log
      intro exposure member
      rcases (apiServer_step served).of_mem member with old | ⟨_, ⟨_, rfl⟩, rfl⟩
      · exact ⟨attributed.exposures exposure old, .inr ⟨exposure, old, rfl, rfl⟩⟩
      · exact ⟨call, .inl rfl⟩
    | _ => exact call.elim
  | patch kind base sent =>
    cases kind with
    | workloadExposure =>
      have workloads : after.store.table .workload = before.store.table .workload :=
        apiServer_table_of_leaves (by exact .inr nofun) served
      apply attributed.of_exposures workloads log
      intro exposure member
      rcases (apiServer_step served).of_mem member with old | ⟨_, ⟨stored, found, rfl⟩, rfl⟩
      · exact ⟨attributed.exposures exposure old, .inr ⟨exposure, old, rfl, rfl⟩⟩
      · have oldMember := Store.mem_of_find? found
        refine ⟨?_, .inr ⟨stored, oldMember, rfl, rfl⟩⟩
        show mergeField base.spec.workloadRef.uid sent.spec.workloadRef.uid
          stored.spec.workloadRef.uid ≠ ""
        unfold mergeField
        split
        · exact attributed.exposures stored oldMember
        · exact call
    | _ => exact call.elim
  | update | updateStatus | patchStatus | delete => exact call.elim

theorem RuntimeCall.attributed {answer : Type} {request : Call answer} (call : RuntimeCall request)
    {worker : Nat} {before after : Recorded WorkloadExposure} {reply : Except GoError answer}
    (served : recordingServer (publications (.runtime worker)) request before reply after)
    (attributed : Attributed before) : Attributed after := by
  obtain ⟨served, log⟩ := served
  rcases call with reads | sends
  · have unlogged : publishedBy request reply = none := by
      cases request with
      | get | list => rfl
      | create | update | updateStatus | patch | patchStatus | delete => cases reads
    simp only [publications, unlogged, Option.toList_none, List.nil_append] at log
    exact attributed.of_same (apiServer_of_isRead reads served) log
  · obtain ⟨sent, sends⟩ := Option.isSome_iff_exists.mp sends
    obtain ⟨rfl, rfl⟩ := Call.eq_updateStatus sends
    cases reply with
    | ok value => exact attributed.of_published served log
    | error fault => exact attributed.of_same (apiServer_of_error served) log

/-! ### Every interleaving -/

/-- The endpoint that a patch sends is the URL that the runtime last published with
the one exposure the run has read, and was published for the stored Workload. -/
def CopiesMeant (history : List (EventOn (Recorded WorkloadExposure)))
    (event : EventOn (Recorded WorkloadExposure)) : Prop :=
  ∀ patch ∈ event.request.patchedStatus .workload,
    ∀ url ∈ patch.2.status.endpoint,
      ∀ workload ∈ event.before.store.find? .workload patch.2.key,
        ∃ state exposure published, exposuresRead history = [(state, exposure)] ∧
          lastPublished exposure.key state.log = some published ∧
          published.status.exposures.head?.map ExposureEntry.url = some url ∧
          MeantFor published workload

theorem copiesMeant_of_isRead (history : List (EventOn (Recorded WorkloadExposure)))
    {event : EventOn (Recorded WorkloadExposure)} (reads : event.request.isRead = true) :
    CopiesMeant history event := by
  intro patch patched
  rw [Call.patchedStatus_of_isRead reads] at patched
  cases patched

/-- The terms on which every actor works. -/
def exposureContract (actor : ExposureActor) :
    Contract Call GoError (Recorded WorkloadExposure) where
  service := recordingServer (publications actor)
  rely before after := Attributed before → Attributed after
  rely_refl _ := id
  rely_trans early late := late ∘ early
  admits := (exposureRules CopiedInOrder).admits actor
  guarantee history event :=
    (Attributed event.before → Attributed event.after) ∧
      ∀ worker, actor = .mirror worker → CopiesMeant history event

theorem registerExposure_attributed (worker : Nat) (runtimeClass : String) (key : NamespacedName)
    (attributed : Attributed state) :
    Safe (exposureContract (.registrar worker)) (fun _ _ _ => True)
      (registerExposure runtimeClass key) [] state := by
  have got : Registers (.get .workload key) := trivial
  intro before moved reply after served _
  refine ⟨⟨got.attributed served, nofun⟩, ?_⟩
  simp only [done_bind]
  cases reply with
  | error fault => exact fun _ _ => trivial
  | ok workload =>
    obtain ⟨found, _⟩ := apiServer_get_ok served.1
    have named := (moved attributed).workloads workload (Store.mem_of_find? found)
    dsimp only
    split
    · exact fun _ _ => trivial
    · have makes : (applyExposure (desiredExposure runtimeClass workload)).Makes
          Registers := by
        refine applyExposure_makes ?_ named fun _ => named
        intro answer request reads
        cases request with
        | get | list => trivial
        | create | update | updateStatus | patch | patchStatus | delete => cases reads
      refine (Safe.of_makes makes ?_).mono fun _ _ _ _ => trivial
      intro answer request call history before reply after served _
      exact ⟨⟨call.attributed served, nofun⟩, call.attributed served⟩

theorem runtime_attributed (worker : Nat) {program : Client Unit}
    (makes : program.Makes RuntimeCall) (state : Recorded WorkloadExposure) :
    Safe (exposureContract (.runtime worker)) (fun _ _ _ => True) program []
      state := by
  refine (Safe.of_makes makes ?_).mono fun _ _ _ _ => trivial
  intro answer request call history before reply after served _
  exact ⟨⟨call.attributed served, nofun⟩, call.attributed served⟩

/-- The guards of the mirror, for an exposure with a UID. -/
theorem meantFor_of_not_isOutdated {workload : Workload}
    (named : exposure.spec.workloadRef.uid ≠ "") (current : isOutdated exposure workload = false) :
    MeantFor exposure workload := by
  simp only [isOutdated, Bool.or_eq_false_iff, Bool.and_eq_false_iff,
    decide_eq_false_iff_not, ne_eq, not_not, not_lt] at current
  exact ⟨(current.1.resolve_left named).symm, current.2⟩

/-- An exposure that asks for an endpoint has been published. -/
theorem Attributed.exists_published (attributed : Attributed state)
    (member : exposure ∈ (state.store.table .workloadExposure).rows) {settings : MirrorSettings}
    {url : String} (asked : newEndpoint settings exposure = some url) :
    ∃ published, lastPublished exposure.key state.log = some published ∧
      published.status.exposures.head?.map ExposureEntry.url = some url := by
  obtain ⟨_, first⟩ := newEndpoint_eq_some asked
  rcases attributed.published exposure member with empty | ⟨published, last, status⟩
  · rw [empty] at first
    cases first
  · exact ⟨published, last, status ▸ first⟩

/-- What a published exposure was for, an exposure that has not been refreshed since
is for, and so is a Workload that has not moved. -/
theorem MeantFor.of_unrefreshed {published : WorkloadExposure} {read stored : Workload}
    (meant : MeantFor exposure read)
    (unrefreshed : published.spec.workloadRef.uid = exposure.spec.workloadRef.uid ∧
      exposure.spec.observedWorkloadGeneration ≤ published.spec.observedWorkloadGeneration)
    (unmoved : stored.metadata.uid = read.metadata.uid ∧
      stored.metadata.generation ≤ read.metadata.generation) : MeantFor published stored := by
  refine ⟨unrefreshed.1.trans (meant.1.trans unmoved.1.symm), ?_⟩
  exact unmoved.2.trans (meant.2.trans unrefreshed.2)

theorem reconcileExposure_copiesMeant (worker : Nat) (settings : MirrorSettings)
    (key : NamespacedName) (attributed : Attributed state) :
    Safe (exposureContract (.mirror worker)) (fun _ _ _ => True)
      (reconcileExposure settings key) [] state := by
  have ended : ∀ {result : Except GoError ReconcileResult} {history state},
      Safe (exposureContract (.mirror worker)) (fun _ _ _ => True)
        (.done result) history state := fun _ _ => trivial
  intro before moved reply after served _
  obtain ⟨served, log⟩ := served
  have attributed := moved attributed
  refine ⟨⟨fun attributed => attributed.of_same (apiServer_of_isRead rfl served) log,
    fun _ _ => copiesMeant_of_isRead _ rfl⟩, ?_⟩
  cases reply with
  | error fault => exact ended
  | ok exposure =>
    obtain ⟨found, _⟩ := apiServer_get_ok served
    have read := Store.mem_of_find? found
    intro later _ reply afterLater servedLater _
    obtain ⟨servedLater, logLater⟩ := servedLater
    refine ⟨⟨fun attributed =>
      attributed.of_same (apiServer_of_isRead rfl servedLater) logLater,
      fun _ _ => copiesMeant_of_isRead _ rfl⟩, ?_⟩
    simp only [done_bind]
    cases reply with
    | error fault => exact ended
    | ok workload =>
      simp only [patchMirrored]
      split
      · exact ended
      next current =>
        split
        · intro last _ reply afterLast servedLast inOrder
          refine ⟨⟨fun attributed => attributed.of_patchStatus servedLast.1
            servedLast.2, fun _ _ patch patched url asked stored found => ?_⟩, ?_⟩
          · cases patched
            obtain ⟨unrefreshed, unmoved⟩ := inOrder _ rfl
            obtain ⟨published, lastly, first⟩ := attributed.exists_published read asked
            have meant := meantFor_of_not_isOutdated (attributed.exposures _ read)
              (Bool.eq_false_iff.mpr current)
            exact ⟨before, exposure, published, rfl, lastly, first,
              meant.of_unrefreshed
                (unrefreshed (before, exposure) (.head _) published lastly)
                (unmoved stored found)⟩
          · cases reply <;> exact ended
        · exact ended

/-- The rely/guarantee proof. -/
def staleEndpointsVerified : Verified (exposureRules CopiedInOrder) NoExposures where
  invariant := Attributed
  rely _ before after := Attributed before → Attributed after
  rely_refl _ _ := id
  rely_trans _ _ _ _ early late := late ∘ early
  guarantee actor := (exposureContract actor).guarantee
  invariant_initial := .of_noExposures
  invariant_environment attributed wrote := attributed.of_users wrote
  invariant_exchange attributed kept := kept.1 attributed
  rely_environment _ wrote attributed := attributed.of_users wrote
  rely_exchange _ _ kept := kept.1
  safe {actor program state} starts attributed := by
    cases actor with
    | registrar worker =>
      obtain ⟨runtimeClass, key, rfl⟩ := starts
      exact (registerExposure_attributed worker runtimeClass key attributed).discard
    | runtime worker => exact runtime_attributed worker starts state
    | mirror worker =>
      obtain ⟨settings, key, rfl⟩ := starts
      exact (reconcileExposure_copiesMeant worker settings key attributed).discard

/-- No stale endpoint: in every interleaving in which mirrors copy in order, an
endpoint that a mirror sends to a Workload was last published for this UID and for a
generation no earlier than the stored one. -/
theorem copied_endpoint_meantFor {worker : Nat}
    {system next : System ExposureActor Call GoError (Recorded WorkloadExposure)}
    {history : List (EventOn (Recorded WorkloadExposure))}
    {event : EventOn (Recorded WorkloadExposure)}
    (reached : Reachable (exposureRules CopiedInOrder) NoExposures system)
    (moved : System.Step (exposureRules CopiedInOrder) system
      (.exchange (.mirror worker) history event) next) :
    ∀ patch ∈ event.request.patchedStatus .workload,
      ∀ url ∈ patch.2.status.endpoint,
        ∀ workload ∈ event.before.store.find? .workload patch.2.key,
          ∃ state exposure published, exposuresRead history = [(state, exposure)] ∧
            lastPublished exposure.key state.log = some published ∧
            published.status.exposures.head?.map ExposureEntry.url = some url ∧
            published.spec.workloadRef.uid = workload.metadata.uid ∧
            workload.metadata.generation ≤ published.spec.observedWorkloadGeneration :=
  (staleEndpointsVerified.guarantee_of_reachable reached moved).2 worker rfl

/-! ### A publication in time, and one that the registrar overtakes -/

/-- A run of a runtime: read the exposure and put one URL into its status. -/
def publishURL (url : String) (key : NamespacedName) : Client Unit :=
  .call (.get .workloadExposure key) fun
    | .error _ => .done ()
    | .ok exposure =>
      (Program.request (.updateStatus .workloadExposure
        { exposure with status := { exposures := [{ url, ready := true }] } })).discard

theorem publishURL_makes (url : String) (key : NamespacedName) :
    (publishURL url key).Makes RuntimeCall := by
  refine ⟨.inl rfl, fun reply => ?_⟩
  cases reply with
  | error fault => trivial
  | ok exposure => exact ⟨.inr rfl, fun _ => trivial⟩

/-- A Workload at its first generation, not yet exposed. -/
@[irreducible] def bareCluster : Recorded WorkloadExposure where
  store := Store.empty.insert .workload
    { metadata := { name := "web", ns := "default", uid := "u1", generation := 1 }
      spec := {}
      status := default }
  log := []

theorem noExposures_bareCluster : NoExposures bareCluster := by
  exact ⟨by decide +kernel, by decide +kernel⟩

def webRegistration : Client Unit := (registerExposure "kubernetes" webKey).discard

def webPublication : Client Unit := publishURL "http://web" webKey

def webCopy : Client Unit := (reconcileExposure quietMirror webKey).discard

/-- The exposure is registered and published. -/
@[irreducible] def publishedWeb : Recorded WorkloadExposure :=
  afterRecorded (publications (.runtime 0)) webPublication
    (afterRecorded (publications (.registrar 0)) webRegistration bareCluster)

/-- A user changes the spec of the Workload, so the server counts its generation up. -/
@[irreducible] def editWeb (state : Recorded WorkloadExposure) : Recorded WorkloadExposure :=
  match state.store.find? .workload webKey with
  | none => state
  | some workload =>
    { state with
      store := (serve (.update .workload
        { workload with spec := { profile := some "web" } }) state.store).2 }

/-- The Workload is edited and the registrar follows, but the runtime does not. -/
@[irreducible] def refreshedWeb : Recorded WorkloadExposure :=
  afterRecorded (publications (.registrar 0)) webRegistration (editWeb publishedWeb)

section

variable
  {considered : List (EventOn (Recorded WorkloadExposure)) →
    EventOn (Recorded WorkloadExposure) → Prop}

/-- An idle actor may run one of its programs undisturbed. -/
theorem reachable_afterRecorded
    {system : System ExposureActor Call GoError (Recorded WorkloadExposure)}
    (reached : Reachable (exposureRules considered) NoExposures system) {actor : ExposureActor}
    {program : Client Unit} (starts : exposurePrograms actor program)
    (idle : system.thread actor = none)
    (admitted : Admitted (exposureRules considered) actor []
      (recordedRun (publications actor) program system.state)) :
    Reachable (exposureRules considered) NoExposures
      { system with state := afterRecorded (publications actor) program system.state } :=
  reached.run actor idle starts (runs_afterRecorded _ program system.state) admitted

theorem webRegistration_starts : exposurePrograms (.registrar 0) webRegistration :=
  ⟨"kubernetes", webKey, rfl⟩

theorem webPublication_starts : exposurePrograms (.runtime 0) webPublication :=
  publishURL_makes "http://web" webKey

theorem webCopy_starts : exposurePrograms (.mirror 0) webCopy := ⟨quietMirror, webKey, rfl⟩

theorem reachable_publishedWeb :
    Reachable (exposureRules considered) NoExposures
      { state := publishedWeb, thread := fun _ => none } := by
  have initial : Reachable (exposureRules considered) NoExposures
      { state := bareCluster, thread := fun _ => none } :=
    .initial noExposures_bareCluster
  have registered := reachable_afterRecorded initial webRegistration_starts rfl
    (.of_forall (fun _ _ => trivial) _ _)
  unfold publishedWeb
  exact reachable_afterRecorded registered webPublication_starts rfl
    (.of_forall (fun _ _ => trivial) _ _)

theorem usersWrite_editWeb : UsersWrite publishedWeb (editWeb publishedWeb) where
  log := by decide +kernel
  uids := by decide +kernel
  exposures := by decide +kernel

theorem reachable_refreshedWeb :
    Reachable (exposureRules considered) NoExposures
      { state := refreshedWeb, thread := fun _ => none } := by
  have edited : Reachable (exposureRules considered) NoExposures
      { state := editWeb publishedWeb, thread := fun _ => none } :=
    reachable_publishedWeb.step (.environment usersWrite_editWeb)
  unfold refreshedWeb
  exact reachable_afterRecorded edited webRegistration_starts rfl
    (.of_forall (fun _ _ => trivial) _ _)

end

instance (worker : Nat) (history : List (EventOn (Recorded WorkloadExposure)))
    (event : EventOn (Recorded WorkloadExposure)) :
    Decidable ((exposureRules CopiedInOrder).admits (.mirror worker) history event) :=
  inferInstanceAs (Decidable (CopiedInOrder history event))

/-- The calls of a mirror run that meets this cluster. -/
@[irreducible] def copyEvents (state : Recorded WorkloadExposure) :
    List (EventOn (Recorded WorkloadExposure)) :=
  recordedRun (publications (.mirror 0)) webCopy state

theorem exists_copy_exchange {considered : List (EventOn (Recorded WorkloadExposure)) →
      EventOn (Recorded WorkloadExposure) → Prop}
    (reached : Reachable (exposureRules considered) NoExposures { state, thread := fun _ => none })
    (admitted : Admitted (exposureRules considered) (.mirror 0) [] (copyEvents state)) {index : Nat}
    (bound : index < (copyEvents state).length) :
    ∃ before after, Reachable (exposureRules considered) NoExposures before ∧
      System.Step (exposureRules considered) before
        (.exchange (.mirror 0) ((copyEvents state).take index).reverse
          ((copyEvents state).get ⟨index, bound⟩)) after := by
  unfold copyEvents at admitted bound ⊢
  exact System.Reachable.exists_exchange_of_lt (ExposureActor.mirror 0) reached rfl
    webCopy_starts (runs_afterRecorded _ webCopy state) admitted bound

theorem length_copyEvents_publishedWeb : 2 < (copyEvents publishedWeb).length := by
  decide +kernel

/-- The patch of the mirror that meets the published exposure. -/
def promptCopy : EventOn (Recorded WorkloadExposure) :=
  (copyEvents publishedWeb).get ⟨2, length_copyEvents_publishedWeb⟩

/-- A registered and published exposure is mirrored. -/
theorem copied_endpoint_meantFor_published :
    (∃ patch ∈ promptCopy.request.patchedStatus .workload,
      patch.2.status.endpoint = some "http://web" ∧
        (promptCopy.before.store.find? .workload patch.2.key).isSome = true) ∧
      CopiesMeant ((copyEvents publishedWeb).take 2).reverse promptCopy := by
  have admitted : Admitted (exposureRules CopiedInOrder) (.mirror 0) []
      (copyEvents publishedWeb) := by decide +kernel
  obtain ⟨system, next, reached, moved⟩ :=
    exists_copy_exchange reachable_publishedWeb admitted length_copyEvents_publishedWeb
  exact ⟨by decide +kernel, copied_endpoint_meantFor reached moved⟩

/-- The endpoint that a patch sends was published with an exposure that the run has
read, but for another incarnation or an earlier generation of the stored Workload. -/
def CopiesStale (history : List (EventOn (Recorded WorkloadExposure)))
    (event : EventOn (Recorded WorkloadExposure)) : Prop :=
  ∃ patch ∈ event.request.patchedStatus .workload, ∃ url ∈ patch.2.status.endpoint,
    ∃ workload ∈ event.before.store.find? .workload patch.2.key,
      ∃ read ∈ exposuresRead history,
        ∃ published ∈ lastPublished read.2.key read.1.log,
          published.status.exposures.head?.map ExposureEntry.url = some url ∧
            (published.spec.workloadRef.uid ≠ workload.metadata.uid ∨
              published.spec.observedWorkloadGeneration < workload.metadata.generation)

instance (history : List (EventOn (Recorded WorkloadExposure)))
    (event : EventOn (Recorded WorkloadExposure)) : Decidable (CopiesStale history event) :=
  inferInstanceAs (Decidable (∃ patch ∈ event.request.patchedStatus .workload,
    ∃ url ∈ patch.2.status.endpoint,
      ∃ workload ∈ event.before.store.find? .workload patch.2.key,
        ∃ read ∈ exposuresRead history,
          ∃ published ∈ lastPublished read.2.key read.1.log, _ ∧ (_ ∨ _)))

theorem length_copyEvents_refreshedWeb : 2 < (copyEvents refreshedWeb).length := by
  decide +kernel

/-- The runtime publishes for the first generation, a user edits the Workload, the
registrar refreshes the spec of the exposure, and the mirror takes the old URL for one
of the second generation. -/
theorem stale_endpoint_copied :
    ∃ system next history event,
      Reachable (exposureRules fun _ _ => True) NoExposures system ∧
      System.Step (exposureRules fun _ _ => True) system
        (.exchange (.mirror 0) history event) next ∧
      CopiesStale history event ∧
      (event.after.store.find? .workload webKey).map
        (fun workload => workload.status.endpoint) = some (some "http://web") := by
  have refreshed : Reachable (exposureRules fun _ _ => True) NoExposures
      { state := refreshedWeb, thread := fun _ => none } := reachable_refreshedWeb
  obtain ⟨system, next, reached, moved⟩ := exists_copy_exchange refreshed
    (.of_forall (fun _ _ => trivial) _ _)
    length_copyEvents_refreshedWeb
  exact ⟨system, next, _, _, reached, moved, by decide +kernel, by decide +kernel⟩

end ScoreOrchestrator.Controller
