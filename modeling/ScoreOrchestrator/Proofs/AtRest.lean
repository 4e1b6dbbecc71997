/-
Module: Proofs.AtRest
Purpose: What a controller has seen to whenever nothing is queued for a key, in every
  interleaving of its runs with whatever others do to the cluster.
-/
import ScoreOrchestrator.Manager.Watches

namespace ScoreOrchestrator.Manager

open Foundation Program
open Controller (ReconcileResult)

/-!
An error and a delay bring a request back, and so does every change of a watched object
while its run goes on.  What a run writes is watched too.  So a run that lets its request go,
and after which nothing is queued, has found everything in place.
-/

section

variable {Settings : Type _} {sources : List Source} {key : NamespacedName}
  {reconcile : Settings → Client (Except GoError ReconcileResult)}
  {settling : Settling (reconciler sources key reconcile)}

/-- A run begins with a get, and an object that is not found is not there. -/
theorem settles_get {kind : Kind}
    {next : Except GoError kind.Object → Client (Except GoError ReconcileResult)}
    {history : List ApiEvent} {state : Store}
    (absent : ∀ {store : Store}, store.find? kind key = none → settling.settled store)
    (fails : ∀ fault : GoError, ∃ value, next (.error fault) = .done value ∧
      (fault.isNotFound = false → verdict value = .requeue))
    (present : ∀ {object history state}, state.find? kind key = some object →
      settling.Settles verdict (next (.ok object)) history state) :
    settling.Settles verdict (.call (.get kind key) next) history state := by
  intro before _ reply after served _
  refine ⟨trivial, ?_⟩
  cases reply with
  | ok object =>
    obtain ⟨found, rfl⟩ := apiServer_get_ok (apiServer_of_truthfulServer served)
    exact present found
  | error fault =>
    obtain rfl := apiServer_of_error (apiServer_of_truthfulServer served)
    obtain ⟨value, ended, comesBack⟩ := fails fault
    rw [ended]
    refine fun later quiet forgets => settling.stable quiet (absent ?_)
    cases found : after.find? kind key with
    | none => rfl
    | some object =>
      obtain ⟨_, answered | ⟨_, same, otherwise⟩⟩ := truthfulServer_get found served
      · cases answered
      · cases same
        cases (comesBack otherwise).symm.trans forgets

theorem settled_at_rest {start : Store} {work : WorkState Call GoError Store}
    (settles : ∀ settings state, settling.Settles verdict (reconcile settings) [] state)
    (reached : WorkState.Reachable (reconciler sources key reconcile) start work)
    (rests : work.AtRest) : settling.settled work.state := by
  refine settling.settled_of_reachable ?_ reached rests
  rintro _ ⟨settings, rfl⟩ state
  exact (settles settings state).bind_verdict

/-- A run that nobody and nothing disturbs. -/
def undisturbed (program : Client (Except GoError ReconcileResult)) (store : Store) :
    List ApiEvent × Outcome Verdict × Store :=
  (program.bind fun returned => .done (verdict returned)).execute serve [] store

/-- The run has woken the controller again. -/
abbrev wakesAgain (sources : List Source) (key : NamespacedName)
    (program : Client (Except GoError ReconcileResult)) (store : Store) : Prop :=
  ∃ event ∈ (undisturbed program store).1, key ∈ enqueued sources event.before event.after

theorem reachable_undisturbed {start store : Store} {queued : Prop}
    (reached : WorkState.Reachable (reconciler sources key reconcile) start ⟨store, queued, none⟩)
    (waits : queued) (settings : Settings)
    (forgets : (undisturbed (reconcile settings) store).2.1 = .returned .forget) :
    WorkState.Reachable (reconciler sources key reconcile) start
      ⟨(undisturbed (reconcile settings) store).2.2,
        wakesAgain sources key (reconcile settings) store, none⟩ := by
  have run := runs_execute_reliable serve
    ((reconcile settings).bind fun returned => .done (verdict returned)) store
  have returned := forgets
  unfold undisturbed at returned
  rw [returned] at run
  have finished := (reached.step (.take waits ⟨settings, rfl⟩)).finished
    (run.mono fun _ _ _ _ _ => truthfulServer_of_healthyServer)
  simpa [wakesAgain, undisturbed, reconciler] using finished

end

/-! ### Finalizers -/

section

open Controller

variable {key : NamespacedName} {workload : Workload} {state : Store} {settings : Settings}
  {history : List ApiEvent}

/-- The Workload controller at a key. -/
abbrev workloadItem (key : NamespacedName) : WorkItem Call GoError Store :=
  reconciler workloadSources key fun settings => reconcileWorkload settings key

/-- The controller holds a Workload until it is being deleted, and then lets it go. -/
def finalizerSettling (key : NamespacedName) : Settling (workloadItem key) where
  settled store := ∀ workload : Workload, store.find? .workload key = some workload →
    hasFinalizer workload = !workload.isBeingDeleted
  quiet before after := after.find? .workload key = before.find? .workload key
  quiet_refl _ := rfl
  quiet_trans first second := second.trans first
  quiet_silent _ := find?_eq_of_silent
  stable quiet settled workload finds := settled workload (quiet ▸ finds)
  unlisted unlisted workload found := by
    have nothing := find?_eq_of_silent unlisted
    rw [found, Store.find?_empty] at nothing
    cases nothing

/-- Adding the finalizer or taking it away wakes the controller again. -/
theorem withFinalizers_wakes (found : state.find? .workload key = some workload)
    {finalizers : List String}
    (differs : hasFinalizer workload ≠ finalizers.contains workloadFinalizer) :
    Safe (finalizerSettling key).contract (fun returned _ _ => returned.toOption = none)
      (Program.request (.update .workload (withFinalizers workload finalizers))) history
      state := by
  intro before quiet reply after served silent
  refine ⟨trivial, ?_⟩
  cases reply with
  | error fault => exact fun _ _ => rfl
  | ok updated =>
    have there := quiet.trans found
    have finds := (find?_eq_of_silent silent).trans there
    rw [← Store.key_of_find? found] at there finds
    obtain ⟨version, same⟩ :=
      apiServer_update_finds (apiServer_of_truthfulServer served) there finds
    exact absurd (congrArg hasFinalizer same) differs

/-- Deletion goes on until the finalizer is gone. -/
theorem executeDeletionPhase_settles (found : state.find? .workload key = some workload)
    (held : hasFinalizer workload = true) :
    Safe (finalizerSettling key).contract
      (fun result _ _ => result.error = none → result.requeue = true)
      (executeDeletionPhase settings workload) history state := by
  have fails : ∀ {fault : GoError} {history state}, Safe (finalizerSettling key).contract
      (fun (result : PhaseResult) _ _ => result.error = none → result.requeue = true)
      (.done { error := some fault }) history state := fun _ _ noError => by cases noError
  unfold executeDeletionPhase
  rw [if_pos held]
  apply Safe.bind
  refine ((finalizerSettling key).safe_quiet _).mono fun listed _ _ listing => ?_
  cases listed with
  | error fault => exact fails
  | ok claims =>
    apply Safe.bind
    refine ((finalizerSettling key).safe_quiet _).mono fun processed _ _ processing => ?_
    cases processed with
    | error fault => exact fails
    | ok _ =>
      apply Safe.bind
      refine ((finalizerSettling key).safe_quiet _).mono fun listed _ _ again => ?_
      cases listed with
      | error fault => exact fails
      | ok remaining =>
        dsimp only
        split
        · exact fun _ _ _ => rfl
        · apply Safe.bind
          unfold removeFinalizer
          rw [if_pos held]
          have there := again.trans (processing.trans (listing.trans found))
          refine (withFinalizers_wakes there (by simp [held])).mono ?_
          rintro (fault | removed) _ _ none
          · exact fails
          · cases none

/-- A run that lets its request go leaves the finalizer where it belongs. -/
theorem reconcileWorkload_settles :
    (finalizerSettling key).Settles verdict (reconcileWorkload settings key) history state := by
  refine settles_get (fun absent workload finds => ?_) (fun fault => ?_) ?_
  · cases absent.symm.trans finds
  · cases missing : fault.isNotFound <;> simp [missing, verdict]
  intro workload _ state found
  by_cases settled : hasFinalizer workload = !workload.isBeingDeleted
  · -- there is nothing to see to, whatever the run does
    refine ((finalizerSettling key).safe_quiet _).mono fun _ _ later quiet _ stored finds => ?_
    cases (quiet.trans found).symm.trans finds
    exact settled
  simp only [done_bind, executePipeline]
  cases deleting : workload.isBeingDeleted with
  | true =>
    have held : hasFinalizer workload = true := by simpa [deleting] using settled
    apply Safe.bind
    refine (executeDeletionPhase_settles found held).mono fun result _ _ again => ?_
    split
    · exact fun _ _ forgets => by cases forgets
    next noError =>
      rw [if_pos (again noError)]
      intro _ _ forgets
      simp [verdict] at forgets
  | false =>
    have bare : hasFinalizer workload = false := by simpa [deleting] using settled
    apply Safe.bind
    unfold ensureFinalizer
    rw [if_neg (by simp [bare])]
    refine (withFinalizers_wakes found (by simp [bare])).mono ?_
    rintro (fault | added) _ _ none
    · exact fun _ _ forgets => by cases forgets
    · cases none

/-- The finalizer is never forgotten.  In every interleaving of the runs of the Workload
controller with whatever others do to the cluster, whatever fails and whenever it restarts: a
Workload whose key is neither queued nor being worked on has the finalizer, unless it is being
deleted, and then it has it no longer. -/
theorem finalizer_at_rest {start : Store} {work : WorkState Call GoError Store}
    (reached : WorkState.Reachable (workloadItem key) start work) (rests : work.AtRest)
    (found : work.state.find? .workload key = some workload) :
    hasFinalizer workload = !workload.isBeingDeleted :=
  settled_at_rest (fun _ _ => reconcileWorkload_settles) reached rests workload found

/-- A new Workload. -/
def newStore : Store := Store.empty.insert .workload
  { metadata := { name := "web", ns := "a", uid := "u1", generation := 1 }
    spec := default
    status := default }

/-- The cluster after a run for it. -/
@[irreducible] def finalizedStore : Store :=
  (undisturbed (reconcileWorkload quietSettings ⟨"a", "web"⟩) newStore).2.2

/-- The first run adds the finalizer, and the second finds nothing to do. -/
theorem finalizer_at_rest_added :
    ∃ work workload, WorkState.Reachable (workloadItem ⟨"a", "web"⟩) newStore work ∧
      work.state.find? .workload ⟨"a", "web"⟩ = some workload ∧
      workload.isBeingDeleted = false ∧ hasFinalizer workload = !workload.isBeingDeleted := by
  have listed : ⟨"a", "web"⟩ ∈ enqueued workloadSources .empty newStore := by decide +kernel
  have first : WorkState.Reachable (workloadItem ⟨"a", "web"⟩) newStore
      ⟨finalizedStore, wakesAgain workloadSources ⟨"a", "web"⟩
        (reconcileWorkload quietSettings ⟨"a", "web"⟩) newStore, none⟩ := by
    unfold finalizedStore
    exact reachable_undisturbed .start listed quietSettings (by decide +kernel)
  have second := reachable_undisturbed first (by decide +kernel) quietSettings (by decide +kernel)
  have live : ((undisturbed (reconcileWorkload quietSettings ⟨"a", "web"⟩)
      finalizedStore).2.2.find? .workload ⟨"a", "web"⟩).any
        (fun workload => !workload.isBeingDeleted) = true := by
    decide +kernel
  obtain ⟨workload, found, alive⟩ := Option.any_eq_true _ _ |>.mp live
  exact ⟨_, workload, second, found, by simpa using alive,
    finalizer_at_rest second ⟨by decide +kernel, rfl⟩ found⟩

end

/-! ### Exposures -/

section

open ScoreOrchestrator.Runtime

variable {settings : ExposureSettings} {key : NamespacedName} {before after state : Store}
  {history : List ApiEvent} {exposure : WorkloadExposure}

/-- The exposure controller at a key. -/
abbrev exposureItem (settings : ExposureSettings) (key : NamespacedName) :
    WorkItem Call GoError Store :=
  reconciler exposureSources key fun _ : Unit => reconcileWorkloadExposure settings key

/-- The Services of the Workload of a name. -/
def servicesOf (key : NamespacedName) (store : Store) : List Service :=
  (store.table .service).rows.filter ((workloadServices key.ns key.name).selects .service)

/-- The exposure is the same, and so are the Services if it is one of this runtime. -/
structure ExposureQuiet (key : NamespacedName) (before after : Store) : Prop where
  exposure : after.find? .workloadExposure key = before.find? .workloadExposure key
  services : ∀ exposure : WorkloadExposure,
    before.find? .workloadExposure key = some exposure →
    exposure.spec.runtimeClass = kubernetesRuntimeClass →
    (servicesOf key after).Perm (servicesOf key before)

/-- The event of a Service leads to the exposure that its label names. -/
theorem ExposureQuiet.of_silent (silent : key ∉ enqueued exposureSources before after) :
    ExposureQuiet key before after := by
  have same := find?_eq_of_silent silent
  refine ⟨same, fun exposure found ours => ?_⟩
  have nodup : ∀ store, (servicesOf key store).Nodup := fun store =>
    (List.Nodup.of_map _ (store.table .service).nodup).filter _
  refine (List.perm_ext_iff_of_nodup (nodup _) (nodup _)).mpr fun service => ?_
  simp only [servicesOf, List.mem_filter]
  refine and_congr_left fun selected => ?_
  simp only [workloadServices, ListSelector.selects, Bool.and_eq_true, decide_eq_true_eq,
    List.all_cons, List.all_nil, and_true] at selected
  have named : ({ name := key.name, ns := service.metadata.ns } : NamespacedName) = key := by
    rw [selected.1]
  have asks : key ∈
      ((findWorkloadExposuresForService service).execute serve [] after).2.1.getD [] := by
    simp [findWorkloadExposuresForService, selected.2, named, Program.execute, Outcome.getD,
      serve_get_some (same.trans found), ours]
  exact mem_iff_of_silent (.tail _ (.head _)) silent asks

/-- The status of an exposure of this runtime is published from the Services of its Workload,
in some order. -/
def exposureSettling (settings : ExposureSettings) (key : NamespacedName) :
    Settling (exposureItem settings key) where
  settled store := ∀ exposure : WorkloadExposure,
    store.find? .workloadExposure key = some exposure →
    exposure.spec.runtimeClass = kubernetesRuntimeClass →
    ∃ services, services.Perm (servicesOf key store) ∧
      exposure.status = publishedStatus (exposureURL settings services)
  quiet := ExposureQuiet key
  quiet_refl _ := ⟨rfl, fun _ _ _ => .refl _⟩
  quiet_trans first second := ⟨second.exposure.trans first.exposure, fun exposure found ours =>
    (second.services exposure (first.exposure.trans found) ours).trans
      (first.services exposure found ours)⟩
  quiet_silent _ := .of_silent
  stable quiet settled exposure finds ours := by
    rw [quiet.exposure] at finds
    obtain ⟨services, listed, status⟩ := settled exposure finds ours
    exact ⟨services, listed.trans (quiet.services exposure finds ours).symm, status⟩
  unlisted unlisted exposure found := by
    have nothing := (ExposureQuiet.of_silent unlisted).exposure
    rw [found, Store.find?_empty] at nothing
    cases nothing

/-- The status is there already, or writing it wakes the controller again. -/
theorem publishURL_settles {services : List Service}
    (found : state.find? .workloadExposure key = some exposure)
    (listed : services.Perm (servicesOf key state)) :
    (exposureSettling settings key).Settles verdict
      (publishURL exposure (exposureURL settings services)) history state := by
  unfold publishURL
  split
  next published =>
    refine fun later quiet _ => (exposureSettling settings key).stable quiet ?_
    intro stored there ours
    cases found.symm.trans there
    exact ⟨services, listed, published⟩
  next unpublished =>
    intro before quiet reply after served silent
    refine ⟨trivial, ?_⟩
    cases reply with
    | error fault => exact fun _ _ forgets => by cases forgets
    | ok updated =>
      obtain ⟨stored, written⟩ := apiServer_statusWritten (apiServer_of_truthfulServer served)
      have finds := written.finds
      have sentKey : Resource.key { exposure with
          status := publishedStatus (exposureURL settings services) } = key :=
        Store.key_of_find? found
      rw [sentKey, (ExposureQuiet.of_silent silent).exposure, quiet.exposure, found] at finds
      cases finds
      exact absurd written.status unpublished

/-- A run that lets its request go leaves the status published. -/
theorem reconcileWorkloadExposure_settles :
    (exposureSettling settings key).Settles verdict
      (reconcileWorkloadExposure settings key) history state := by
  refine settles_get (fun absent exposure finds => ?_) (fun fault => ?_) ?_
  · cases absent.symm.trans finds
  · cases missing : fault.isNotFound <;> simp [missing, verdict]
  intro exposure _ state found
  simp only [done_bind]
  split
  next foreign =>
    intro later quiet _ stored finds ours
    cases (quiet.exposure.trans found).symm.trans finds
    exact absurd ours foreign
  · intro listing quiet reply after served _
    refine ⟨trivial, ?_⟩
    cases reply with
    | error fault => exact fun _ _ forgets => by cases forgets
    | ok services =>
      rcases served with served | ⟨⟨_, fails, _⟩, _⟩
      · cases served
        obtain rfl := Store.key_of_find? found
        exact publishURL_settles (quiet.exposure.trans found) (.refl _)
      · cases fails

/-- The exposure controller misses nothing.  In every interleaving of its runs with whatever
others do to the cluster: the status of an exposure of this runtime whose key is neither queued
nor being worked on is the one that the Services labelled with its Workload give. -/
theorem exposure_at_rest {start : Store} {work : WorkState Call GoError Store}
    (reached : WorkState.Reachable (exposureItem settings key) start work) (rests : work.AtRest)
    (found : work.state.find? .workloadExposure key = some exposure)
    (ours : exposure.spec.runtimeClass = kubernetesRuntimeClass) :
    ∃ services, services.Perm (servicesOf key work.state) ∧
      exposure.status = publishedStatus (exposureURL settings services) :=
  settled_at_rest (fun _ _ => reconcileWorkloadExposure_settles) reached rests exposure found ours

/-- A Service, and an exposure without a URL. -/
def unpublishedStore : Store :=
  (Store.empty.insert .service
    { metadata := { name := "web", ns := "a", labels := .ofList [("score.dev/workload", "web")] }
      spec := ⟨"", [⟨"http", 80, 80, "TCP", 0⟩], .empty, ""⟩
      status := default }).insert .workloadExposure
    { metadata := { name := "web", ns := "a" }
      spec := ⟨default, 1, "kubernetes"⟩
      status := default }

def parsesAll : ExposureSettings := ⟨fun _ => .ok ⟨"http", "localhost"⟩⟩

/-- The cluster after a run for it. -/
@[irreducible] def publishedStore : Store :=
  (undisturbed (reconcileWorkloadExposure parsesAll ⟨"a", "web"⟩) unpublishedStore).2.2

/-- The first run publishes the URL, and the second finds nothing to do. -/
theorem exposure_at_rest_published :
    ∃ work exposure services,
      WorkState.Reachable (exposureItem parsesAll ⟨"a", "web"⟩) unpublishedStore work ∧
      work.state.find? .workloadExposure ⟨"a", "web"⟩ = some exposure ∧
      exposure.status = publishedStatus "http://localhost:80" ∧
      services.Perm (servicesOf ⟨"a", "web"⟩ work.state) ∧
      exposure.status = publishedStatus (exposureURL parsesAll services) := by
  have listed : ⟨"a", "web"⟩ ∈ enqueued exposureSources .empty unpublishedStore := by decide +kernel
  have first : WorkState.Reachable (exposureItem parsesAll ⟨"a", "web"⟩) unpublishedStore
      ⟨publishedStore, wakesAgain exposureSources ⟨"a", "web"⟩
        (reconcileWorkloadExposure parsesAll ⟨"a", "web"⟩) unpublishedStore, none⟩ := by
    unfold publishedStore
    exact reachable_undisturbed .start listed () (by decide +kernel)
  have second := reachable_undisturbed first (by decide +kernel) () (by decide +kernel)
  have published : ((undisturbed (reconcileWorkloadExposure parsesAll ⟨"a", "web"⟩)
      publishedStore).2.2.find? .workloadExposure ⟨"a", "web"⟩).any (fun exposure =>
        exposure.spec.runtimeClass = kubernetesRuntimeClass &&
          exposure.status = publishedStatus "http://localhost:80") = true := by
    decide +kernel
  obtain ⟨exposure, found, both⟩ := Option.any_eq_true _ _ |>.mp published
  simp only [Bool.and_eq_true, decide_eq_true_eq] at both
  obtain ⟨services, all, status⟩ := exposure_at_rest second ⟨by decide +kernel, rfl⟩ found both.1
  exact ⟨_, exposure, services, second, found, both.2, all, status⟩

end

end ScoreOrchestrator.Manager
