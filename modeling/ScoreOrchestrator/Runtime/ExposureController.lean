/-
Module: Runtime.ExposureController
Purpose: The Kubernetes runtime's side of a WorkloadExposure: from the Services of a
  Workload to the URL that is published
  (runtimes/kubernetes/internal/controller/exposure_controller.go).
Trusted boundary: human-reviewed spec
Main exports: exposureURL, reconcileWorkloadExposure, findWorkloadExposuresForService
-/
import ScoreOrchestrator.Runtime.PlanController

namespace ScoreOrchestrator.Runtime

open Foundation
open Controller (ReconcileResult)

/-! ### URLs -/

/-- The parts of a `url.URL` that are read. -/
structure ParsedURL where
  scheme : String
  host : String

/-- What one run finds besides the cluster: `url.Parse`. -/
structure ExposureSettings where
  parseURL : String → Except GoError ParsedURL

/-- `isValidURL`. -/
def isValidURL (settings : ExposureSettings) (urlStr : String) : Bool :=
  if urlStr = "" then false
  else
    match settings.parseURL urlStr with
    | .error _ => false
    | .ok parsedURL => parsedURL.scheme ≠ "" && parsedURL.host ≠ ""

/-- The end of each of the functions below: a URL if it is valid. -/
def validURL (settings : ExposureSettings) (serviceURL : String) : Except GoError String :=
  if isValidURL settings serviceURL then .ok serviceURL else .ok ""

/-- `getURLFromLoadBalancer`. -/
def getURLFromLoadBalancer (settings : ExposureSettings) (service : Service) :
    Except GoError String :=
  match service.status.ingress with
  | [] => .ok ""
  | ingress :: _ =>
    let host := if ingress.ip = "" then ingress.hostname else ingress.ip
    if host = "" then .ok ""
    else
      match service.spec.ports with
      | [] => .ok ""
      | first :: _ => validURL settings ("http://" ++ (host ++ ":" ++ toString first.port))

/-- `getURLFromNodePort`. -/
def getURLFromNodePort (settings : ExposureSettings) (service : Service) : Except GoError String :=
  match service.spec.ports with
  | [] => .ok ""
  | first :: _ =>
    if first.nodePort = 0 then .ok ""
    else validURL settings ("http://" ++ ("localhost:" ++ toString first.nodePort))

/-- `getURLFromClusterIP`. -/
def getURLFromClusterIP (settings : ExposureSettings) (service : Service) : Except GoError String :=
  if service.spec.type ≠ "" ∧ service.spec.type ≠ "ClusterIP" then .ok ""
  else
    match service.spec.ports with
    | [] => .ok ""
    | first :: _ => validURL settings ("http://" ++ ("localhost:" ++ toString first.port))

/-- `getURLFromService`.  No Service gives an error. -/
def getURLFromService (settings : ExposureSettings) (service : Service) : Except GoError String :=
  if service.spec.type = "LoadBalancer" then getURLFromLoadBalancer settings service
  else if service.spec.type = "NodePort" then getURLFromNodePort settings service
  else if service.spec.type = "ClusterIP" ∨ service.spec.type = "" then
    getURLFromClusterIP settings service
  else .ok ""

/-! ### Reconciliation -/

/-- The loop over the listed Services: the first URL that is not empty.  A Service that
fails is passed over. -/
def exposureURL (settings : ExposureSettings) : List Service → String
  | [] => ""
  | service :: rest =>
    match getURLFromService settings service with
    | .error _ => exposureURL settings rest
    | .ok serviceURL =>
      if serviceURL ≠ "" then serviceURL else exposureURL settings rest

/-- The status for a URL. -/
def publishedStatus (url : String) : WorkloadExposureStatus where
  exposures := [{ url, ready := url ≠ "" }]

/-- The Services of a Workload. -/
def workloadServices (ns workloadName : String) : ListSelector :=
  .inNamespaceMatchingLabels ns [("score.dev/workload", workloadName)]

/-- The end of `Reconcile`: the status is written unless it is there already. -/
def publishURL (workloadExposure : WorkloadExposure) (url : String) :
    Client (Except GoError ReconcileResult) :=
  if workloadExposure.status = publishedStatus url then pure (.ok {})
  else do
    let updated ← Program.request (.updateStatus .workloadExposure
      { workloadExposure with status := publishedStatus url })
    match updated with
    | .error fault => pure (.error fault)
    | .ok _ => pure (.ok {})

/-- `KubernetesRuntimeExposureReconciler.Reconcile`. -/
def reconcileWorkloadExposure (settings : ExposureSettings) (key : NamespacedName) :
    Client (Except GoError ReconcileResult) := do
  let got ← Program.request (.get .workloadExposure key)
  match got with
  | .error fault =>
    if fault.isNotFound then pure (.ok {}) else pure (.error fault)
  | .ok workloadExposure =>
    if workloadExposure.spec.runtimeClass ≠ kubernetesRuntimeClass then pure (.ok {})
    else
      let listed ← Program.request
        (.list .service (workloadServices key.ns workloadExposure.metadata.name))
      match listed with
      | .error fault => pure (.error fault)
      | .ok services => publishURL workloadExposure (exposureURL settings services)

/-- `findWorkloadExposuresForService`: what an event of a Service leads to. -/
def findWorkloadExposuresForService (service : Service) : Client (List NamespacedName) :=
  match service.metadata.labels.get? "score.dev/workload" with
  | none => pure []
  | some workloadName => do
      let namespacedName : NamespacedName := { name := workloadName, ns := service.metadata.ns }
      let got ← Program.request (.get .workloadExposure namespacedName)
      match got with
      | .error _ => pure []
      | .ok workloadExposure =>
        if workloadExposure.spec.runtimeClass ≠ kubernetesRuntimeClass then pure []
        else pure [namespacedName]

end ScoreOrchestrator.Runtime
