/-
Module: Proofs.PublishedExposures
Purpose: What the Kubernetes runtime publishes in a WorkloadExposure: a web URL while some
  Service of the Workload yields one, and an entry that the schema refuses otherwise.
-/
import ScoreOrchestrator.Api.ServerLaws
import ScoreOrchestrator.Runtime.ExposureController

namespace ScoreOrchestrator.Runtime

open Foundation Program
open Controller (ReconcileResult)

variable (settings : ExposureSettings)

/-! ### The rule of the schema -/

/-- The rule for the URL of an entry. -/
def hasWebScheme (url : String) : Bool :=
  "http://".toList.isPrefixOf url.toList || "https://".toList.isPrefixOf url.toList

/-- Does the schema admit a status? -/
def admits (status : WorkloadExposureStatus) : Bool :=
  status.exposures.all fun entry => hasWebScheme entry.url

theorem hasWebScheme_http (rest : String) : hasWebScheme ("http://" ++ rest) = true := by
  unfold hasWebScheme
  rw [String.toList_append, Bool.or_eq_true]
  exact .inl (List.isPrefixOf_iff_prefix.mpr (List.prefix_append _ _))

/-! ### URLs of Services -/

/-- A Service yields a URL. -/
def Yields (settings : ExposureSettings) (service : Service) : Prop :=
  ∃ url, getURLFromService settings service = .ok url ∧ url ≠ ""

/-- What the functions for each type of Service return: no error, and a web URL if any. -/
def EmptyOrWeb (result : Except GoError String) : Prop :=
  ∃ url, result = .ok url ∧ (url ≠ "" → hasWebScheme url = true)

theorem emptyOrWeb_empty : EmptyOrWeb (.ok "") := ⟨"", rfl, fun given => absurd rfl given⟩

theorem emptyOrWeb_validURL (rest : String) :
    EmptyOrWeb (validURL settings ("http://" ++ rest)) := by
  unfold validURL
  split
  · exact ⟨_, rfl, fun _ => hasWebScheme_http rest⟩
  · exact emptyOrWeb_empty

theorem getURLFromLoadBalancer_emptyOrWeb (service : Service) :
    EmptyOrWeb (getURLFromLoadBalancer settings service) := by
  unfold getURLFromLoadBalancer
  cases service.status.ingress with
  | nil => exact emptyOrWeb_empty
  | cons ingress _ =>
    dsimp only
    generalize (if ingress.ip = "" then ingress.hostname else ingress.ip) = host
    split
    · exact emptyOrWeb_empty
    · cases service.spec.ports with
      | nil => exact emptyOrWeb_empty
      | cons first _ => exact emptyOrWeb_validURL settings _

theorem getURLFromNodePort_emptyOrWeb (service : Service) :
    EmptyOrWeb (getURLFromNodePort settings service) := by
  unfold getURLFromNodePort
  cases service.spec.ports with
  | nil => exact emptyOrWeb_empty
  | cons first _ =>
    dsimp only
    split
    · exact emptyOrWeb_empty
    · exact emptyOrWeb_validURL settings _

theorem getURLFromClusterIP_emptyOrWeb (service : Service) :
    EmptyOrWeb (getURLFromClusterIP settings service) := by
  unfold getURLFromClusterIP
  split
  · exact emptyOrWeb_empty
  · cases service.spec.ports with
    | nil => exact emptyOrWeb_empty
    | cons first _ => exact emptyOrWeb_validURL settings _

theorem getURLFromService_emptyOrWeb (service : Service) :
    EmptyOrWeb (getURLFromService settings service) := by
  unfold getURLFromService
  split
  · exact getURLFromLoadBalancer_emptyOrWeb settings service
  · split
    · exact getURLFromNodePort_emptyOrWeb settings service
    · split
      · exact getURLFromClusterIP_emptyOrWeb settings service
      · exact emptyOrWeb_empty

/-! ### The loop over the Services -/

section

variable {settings : ExposureSettings}

/-- One step of the loop: the URL of a Service that yields one ends it. -/
theorem exposureURL_cons (service : Service) (rest : List Service) :
    (Yields settings service ∧ exposureURL settings (service :: rest) ≠ "" ∧
        hasWebScheme (exposureURL settings (service :: rest)) = true) ∨
      ¬ Yields settings service ∧
        exposureURL settings (service :: rest) = exposureURL settings rest := by
  obtain ⟨url, result, web⟩ := getURLFromService_emptyOrWeb settings service
  rw [exposureURL, result]
  dsimp only
  split
  next given => exact .inl ⟨⟨url, result, given⟩, given, web given⟩
  next empty =>
    refine .inr ⟨?_, rfl⟩
    rintro ⟨other, same, given⟩
    cases result.symm.trans same
    exact empty given

/-- No URL is found exactly if no Service yields one. -/
theorem exposureURL_eq_empty (services : List Service) :
    exposureURL settings services = "" ↔ ∀ service ∈ services, ¬ Yields settings service := by
  induction services with
  | nil => exact iff_of_true rfl (List.forall_mem_nil _)
  | cons service rest ih =>
    rw [List.forall_mem_cons]
    rcases exposureURL_cons service rest with ⟨yields, given, _⟩ | ⟨none_, next⟩
    · exact iff_of_false given fun all => all.1 yields
    · rw [next, ih, and_iff_right none_]

theorem hasWebScheme_exposureURL {services : List Service}
    (given : exposureURL settings services ≠ "") :
    hasWebScheme (exposureURL settings services) = true := by
  induction services with
  | nil => exact absurd rfl given
  | cons service rest ih =>
    rcases exposureURL_cons service rest with ⟨_, _, web⟩ | ⟨_, next⟩
    · exact web
    · rw [next] at given ⊢
      exact ih given

/-- What a published status should be: one that the schema admits, and one without entries
if no Service yields a URL. -/
structure Publishable (settings : ExposureSettings) (services : List Service)
    (status : WorkloadExposureStatus) : Prop where
  admitted : ∀ entry ∈ status.exposures, hasWebScheme entry.url = true
  withdrawn : (∀ service ∈ services, ¬ Yields settings service) → status.exposures = []

theorem publishable_iff (services : List Service) :
    Publishable settings services (publishedStatus (exposureURL settings services)) ↔
      ∃ service ∈ services, Yields settings service := by
  constructor
  · intro publishable
    by_contra none_
    push Not at none_
    cases publishable.withdrawn none_
  · rintro ⟨service, member, yields⟩
    have given : exposureURL settings services ≠ "" := fun empty =>
      (exposureURL_eq_empty services).mp empty service member yields
    refine ⟨?_, fun none_ => absurd yields (none_ service member)⟩
    intro entry among
    obtain rfl := List.mem_singleton.mp among
    exact hasWebScheme_exposureURL given

end

/-! ### Runs -/

section

variable {State : Type} {server : Server State}
  {settings : ExposureSettings} {key : NamespacedName} {before after : State}
  {events : List (EventOn State)}
  {outcome : Outcome (Except GoError ReconcileResult)}

/-- The last part of a run sends one status at most. -/
theorem publishURL_sends {exposure : WorkloadExposure} {url : String}
    (run : (publishURL exposure url).Runs server before events outcome after)
    {event : EventOn State} (member : event ∈ events) :
    event.request.sentStatus .workloadExposure =
      some { exposure with status := publishedStatus url } := by
  unfold publishURL at run
  split at run
  · rw [run.events_of_done] at member
    cases member
  · cases run with
    | interrupted => cases member
    | @call _ _ _ _ _ _ reply _ _ _ rest =>
      rcases List.mem_cons.mp member with rfl | later
      · rfl
      · cases reply <;> (rw [Runs.events_of_done rest] at later; cases later)

/-- A status that a run sends is the one for the exposure that it read and for the Services
that it listed. -/
theorem reconcileWorkloadExposure_sends
    (run : (reconcileWorkloadExposure settings key).Runs server before events outcome after)
    {event : EventOn State} (member : event ∈ events) {sent : WorkloadExposure}
    (sends : event.request.sentStatus .workloadExposure = some sent) :
    ∃ exposure services,
      (∃ reading ∈ events,
        reading.request.fetched .workloadExposure reading.reply = some exposure) ∧
      exposure.spec.runtimeClass = kubernetesRuntimeClass ∧
      (∃ listing ∈ events, listing.request.listed .service listing.reply = some services) ∧
      sent = { exposure with status := publishedStatus (exposureURL settings services) } := by
  cases run with
  | interrupted => cases member
  | @call _ _ _ _ _ _ reply _ _ _ rest =>
    rcases List.mem_cons.mp member with rfl | later
    · cases sends
    cases reply with
    | error fault =>
      simp only [done_bind] at rest
      split at rest <;> (rw [Runs.events_of_done rest] at later; cases later)
    | ok exposure =>
      simp only [done_bind] at rest
      split at rest
      · rw [Runs.events_of_done rest] at later
        cases later
      next handled =>
        cases rest with
        | interrupted => cases later
        | @call _ _ _ _ _ _ listed _ _ _ rest =>
          rcases List.mem_cons.mp later with rfl | last
          · cases sends
          cases listed with
          | error fault =>
            rw [Runs.events_of_done rest] at last
            cases last
          | ok services =>
            have published := publishURL_sends rest last
            rw [sends] at published
            refine ⟨exposure, services, ⟨_, .head _, rfl⟩, not_not.mp handled,
              ⟨_, .tail _ (.head _), rfl⟩, Option.some.inj published⟩

/-- Each status that a run writes: it is one that the schema admits, and empty if no
Service yields a URL, exactly if some Service yields one. -/
theorem reconcileWorkloadExposure_publishes_iff
    (run : (reconcileWorkloadExposure settings key).Runs server before events outcome after)
    {event : EventOn State} (member : event ∈ events) {sent : WorkloadExposure}
    (sends : event.request.sentStatus .workloadExposure = some sent) :
    ∃ services,
      (∃ listing ∈ events, listing.request.listed .service listing.reply = some services) ∧
      (Publishable settings services sent.status ↔
        ∃ service ∈ services, Yields settings service) := by
  obtain ⟨exposure, services, _, _, listed, rfl⟩ := reconcileWorkloadExposure_sends run member sends
  exact ⟨services, listed, publishable_iff services⟩

end

/-! ### A server that enforces the schema -/

/-- Carry out one call; a status of an exposure that breaks the rule is refused. -/
def serveAdmitted {answer : Type} (request : Call answer) (store : Store) :
    Except GoError answer × Store :=
  if (request.sentStatus .workloadExposure).all fun sent => admits sent.status then
    serve request store
  else (.error { text := "URL must start with http:// or https://" }, store)

def admittingServer : Server Store := .unreliable serveAdmitted

/-- A refused call is one that fails. -/
theorem apiServer_of_admittingServer {answer : Type} {request : Call answer} {before after : Store}
    {reply : Except GoError answer} (served : admittingServer request before reply after) :
    apiServer request before reply after := by
  rcases served with carriedOut | failed
  · simp only [serveAdmitted] at carriedOut
    split at carriedOut
    · exact .inl carriedOut
    · cases carriedOut
      exact .inr ⟨⟨_, rfl⟩, rfl⟩
  · exact .inr failed

section

variable {settings : ExposureSettings} {key : NamespacedName} {before after : Store}
  {events : List ApiEvent}
  {outcome : Outcome (Except GoError ReconcileResult)}

/-- Without a URL there is nothing that such a server would store. -/
theorem publishURL_empty_keeps {exposure : WorkloadExposure}
    (run : (publishURL exposure "").Runs admittingServer before events outcome after) :
    after = before := by
  unfold publishURL at run
  split at run
  · cases run <;> rfl
  · cases run with
    | interrupted => rfl
    | @call _ _ _ _ middle _ reply _ _ served rest =>
      have refused : middle = before := by
        rcases served with carriedOut | failed
        · have answer := congrArg Prod.snd carriedOut
          exact answer.symm
        · exact failed.2
      subst refused
      cases reply <;> (cases rest <;> rfl)

/-- Where no Service of the Workload yields a URL, nothing is withdrawn: the run leaves the
cluster as it was, with whatever URL was published. -/
theorem reconcileWorkloadExposure_keeps
    (run : (reconcileWorkloadExposure settings key).Runs admittingServer before events
      outcome after)
    (none_ : ∀ service ∈ (before.table .service).rows,
      (workloadServices key.ns key.name).selects .service service = true →
        ¬ Yields settings service) : after = before := by
  cases run with
  | interrupted => rfl
  | @call _ _ _ _ _ _ reply _ _ served rest =>
    have asked := apiServer_of_admittingServer served
    cases apiServer_of_isRead rfl asked
    cases reply with
    | error fault =>
      simp only [done_bind] at rest
      split at rest <;> (cases rest <;> rfl)
    | ok exposure =>
      have named : exposure.metadata.name = key.name :=
        congrArg NamespacedName.name (Store.find?_eq_some.mp (apiServer_get_ok asked).1).2
      simp only [done_bind] at rest
      split at rest
      · cases rest <;> rfl
      · cases rest with
        | interrupted => rfl
        | @call _ _ _ _ _ _ listed _ _ served rest =>
          have asked := apiServer_of_admittingServer served
          cases apiServer_of_isRead rfl asked
          cases listed with
          | error fault => cases rest <;> rfl
          | ok services =>
            have listing := congrArg Prod.fst (serve_of_ok asked)
            have isListed : (before.table .service).rows.filter
                ((workloadServices key.ns exposure.metadata.name).selects .service) =
                  services := Except.ok.inj listing
            have empty : exposureURL settings services = "" := by
              rw [exposureURL_eq_empty, ← isListed, named]
              intro service member
              obtain ⟨stored, selected⟩ := List.mem_filter.mp member
              exact none_ service stored selected
            simp only [done_bind, empty] at rest
            exact publishURL_empty_keeps rest

end

/-! ### An exposure with a Service and without -/

/-- Every URL parses. -/
def lenientURLs : ExposureSettings where
  parseURL _ := .ok { scheme := "http", host := "localhost" }

def frontKey : NamespacedName := ⟨"default", "front"⟩

/-- An exposure with a status. -/
def frontExposure (status : WorkloadExposureStatus) : WorkloadExposure where
  metadata := { name := "front", ns := "default" }
  spec :=
    { workloadRef := { name := "front", ns := none, uid := "u1" }
      observedWorkloadGeneration := 1
      runtimeClass := kubernetesRuntimeClass }
  status := status

/-- The Service of that Workload. -/
def frontService : Service where
  metadata :=
    { name := "front", ns := "default"
      labels := .ofList [("score.dev/workload", "front")] }
  spec :=
    { type := "ClusterIP"
      ports := [{ name := "http", port := 8080, targetPort := 8080, protocol := "TCP" }]
      selector := .empty }
  status := default

/-- A cluster where nothing is published yet. -/
@[irreducible] def frontStore : Store :=
  (Store.empty.insert .workloadExposure (frontExposure default)).insert .service frontService

/-- A cluster where the URL is published and the Service is gone. -/
@[irreducible] def abandonedStore : Store :=
  Store.empty.insert .workloadExposure
    (frontExposure (publishedStatus "http://localhost:8080"))

/-- The entries published in a cluster. -/
def publishedEntries (store : Store) : Option (List ExposureEntry) :=
  (store.find? .workloadExposure frontKey).map fun exposure => exposure.status.exposures

/-- Does a Service yield a URL? -/
def yieldsURL (settings : ExposureSettings) (service : Service) : Bool :=
  (getURLFromService settings service).toOption.any fun url => url ≠ ""

theorem yields_of_yieldsURL {settings : ExposureSettings} {service : Service}
    (passes : yieldsURL settings service = true) : Yields settings service := by
  unfold yieldsURL at passes
  cases result : getURLFromService settings service with
  | error fault =>
    rw [result] at passes
    cases passes
  | ok url =>
    rw [result] at passes
    exact ⟨url, result, of_decide_eq_true passes⟩

/-- The run from a cluster on a server that carries out every call. -/
def frontRun (store : Store) : List ApiEvent × Outcome (Except GoError ReconcileResult) × Store :=
  (reconcileWorkloadExposure lenientURLs frontKey).execute serve [] store

theorem reconcileWorkloadExposure_publishes_front :
    ∃ event ∈ (frontRun frontStore).1, ∃ sent services,
      event.request.sentStatus .workloadExposure = some sent ∧
      (∃ listing ∈ (frontRun frontStore).1,
        listing.request.listed .service listing.reply = some services) ∧
      Publishable lenientURLs services sent.status := by
  have writes : ((frontRun frontStore).1.any fun event =>
      (event.request.sentStatus .workloadExposure).isSome) = true := by
    decide +kernel
  have yield_ : ((frontRun frontStore).1.all fun event =>
      (event.request.listed .service event.reply).all fun services =>
        services.any (yieldsURL lenientURLs)) = true := by
    decide +kernel
  obtain ⟨event, member, isSent⟩ := List.any_eq_true.mp writes
  obtain ⟨sent, sends⟩ := Option.isSome_iff_exists.mp isSent
  have run := runs_execute_reliable serve
    (reconcileWorkloadExposure lenientURLs frontKey) frontStore
  obtain ⟨services, ⟨listing, listed, isListed⟩, publishable⟩ :=
    reconcileWorkloadExposure_publishes_iff run member sends
  refine ⟨event, member, sent, services, sends, ⟨listing, listed, isListed⟩, ?_⟩
  have found := List.all_eq_true.mp yield_ listing listed
  rw [isListed] at found
  obtain ⟨service, among, passes⟩ := List.any_eq_true.mp found
  exact publishable.mpr ⟨service, among, yields_of_yieldsURL passes⟩

/-- After the Service is gone the run does not withdraw the URL but publishes an entry with
an empty one.  A server that enforces the schema refuses it, and the run ends with that
error in a cluster where the URL still stands. -/
theorem reconcileWorkloadExposure_not_withdrawn :
    (abandonedStore.table .service).rows = [] ∧
    publishedEntries abandonedStore = some [{ url := "http://localhost:8080", ready := true }] ∧
    publishedEntries (frontRun abandonedStore).2.2 = some [{ url := "", ready := false }] ∧
    hasWebScheme "" = false ∧
    (∀ events outcome after,
      (reconcileWorkloadExposure lenientURLs frontKey).Runs admittingServer abandonedStore
        events outcome after → after = abandonedStore) ∧
    ((reconcileWorkloadExposure lenientURLs frontKey).execute serveAdmitted []
      abandonedStore).2.1.passes (fun returned => returned.toOption.isNone) = true := by
  have noServices : (abandonedStore.table .service).rows = [] := by decide +kernel
  refine ⟨noServices, by decide +kernel, by decide +kernel, by decide +kernel, ?_,
    by decide +kernel⟩
  intro events outcome after run
  refine reconcileWorkloadExposure_keeps run ?_
  rw [noServices]
  exact List.forall_mem_nil _

end ScoreOrchestrator.Runtime
