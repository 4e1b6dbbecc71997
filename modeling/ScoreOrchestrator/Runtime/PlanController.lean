/-
Module: Runtime.PlanController
Purpose: The Kubernetes runtime: from a WorkloadPlan and its Workload to a
  Deployment, a Service and the status of the plan
  (runtimes/kubernetes/internal/controller/plan_controller.go).
Trusted boundary: human-reviewed spec
Main exports: buildDeployment, buildService, mergeOwnedFields, reconcilePlan
-/
import ScoreOrchestrator.Controller.Pipeline

namespace ScoreOrchestrator.Runtime

open Foundation
open Controller (ReconcileResult)

def kubernetesRuntimeClass : String := "kubernetes"

/-- What one run of the runtime finds besides the cluster: the iteration order
of maps, the JSON decoder, `resource.ParseQuantity`, and how `%v` prints a
decoded value that is no string. -/
structure RuntimeSettings where
  order : IterOrder
  codec : JsonCodec
  parseQuantity : String → Except GoError Quantity
  printValue : Json → String

/-- The settings of a run in which nothing special happens. -/
def quietRuntime : RuntimeSettings where
  order := .entryOrder
  codec := .text
  parseQuantity text := .ok text
  printValue _ := ""

/-! ### Containers -/

/-- A decoded JSON object as a Go map; of repeated keys the last one counts. -/
def asMap : Json → Option (GoMap Json)
  | .obj fields => some (.ofList fields)
  | _ => none

/-- `json.Unmarshal` into a `map[string]interface{}`, which also takes null. -/
def unmarshalMap (codec : JsonCodec) (raw : String) : Except GoError (GoMap Json) :=
  match codec.unmarshal raw with
  | .error text => .error { text }
  | .ok .null => .ok .empty
  | .ok document =>
    match asMap document with
    | some fields => .ok fields
    | none =>
      .error { text := "json: cannot unmarshal value into Go value of type " ++
        "map[string]interface \x7b\x7d" }

/-- The text of an environment value. -/
def envText (settings : RuntimeSettings) : Json → String
  | .null => ""
  | .str text => text
  | value => settings.printValue value

/-- The `env` object of one container entry. -/
def containerEnv (settings : RuntimeSettings) (containerName : String) (containerMap : GoMap Json) :
    Except GoError (GoMap String) :=
  match containerMap.get? "env" with
  | none => .ok .empty
  | some envRaw =>
    match asMap envRaw with
    | none =>
      .error { text := "env field for container " ++ containerName ++ " is not a map" }
    | some envMap =>
      .ok (.ofList (envMap.rows.map fun entry =>
        (entry.1, envText settings entry.2)))

/-- `extractResolvedEnv`: the object at `containers.<containerName>.env`. -/
def extractResolvedEnv (settings : RuntimeSettings) (resolvedValues : GoMap Json)
    (containerName : String) : Except GoError (GoMap String) :=
  match resolvedValues.get? "containers" with
  | none => .ok .empty
  | some containersRaw =>
    match asMap containersRaw with
    | none => .error { text := "containers field is not a map" }
    | some containersMap =>
      match containersMap.get? containerName with
      | none => .ok .empty
      | some containerRaw =>
        match asMap containerRaw with
        | none => .error { text := "container " ++ containerName ++ " is not a map" }
        | some containerMap => containerEnv settings containerName containerMap

/-- The entries of a map as environment variables. -/
def envVars (order : IterOrder) (entries : GoMap String) : List EnvVar :=
  (order.range entries).map fun entry => { name := entry.1, value := entry.2 }

/-- The environment of a container: the plan's resolved values, or the raw
variables of the Workload if the plan has none. -/
def buildEnv (settings : RuntimeSettings) (plan : WorkloadPlan) (containerName : String)
    (containerSpec : ContainerSpec) : Except GoError (List EnvVar) :=
  match plan.spec.resolvedValues with
  | some resolved =>
    match unmarshalMap settings.codec resolved.raw with
    | .error fault => .error (fault.wrap "failed to unmarshal resolved values: ")
    | .ok resolvedValues =>
      match extractResolvedEnv settings resolvedValues containerName with
      | .error fault =>
        .error (fault.wrap
          "failed to extract resolved environment variables: ")
      | .ok resolvedEnv => .ok (envVars settings.order resolvedEnv)
  | none =>
    match containerSpec.variables_ with
    | some variables_ => .ok (envVars settings.order variables_)
    | none => .ok []

/-- Parse the amounts of one resource list; `what` is `request` or `limit`. -/
def parseQuantities (settings : RuntimeSettings) (what : String) (amounts : GoMap String) :
    Except GoError (GoMap Quantity) := do
  let parsed ← (settings.order.range amounts).mapM fun entry =>
    match settings.parseQuantity entry.2 with
    | .ok quantity => .ok (entry.1, quantity)
    | .error fault =>
      .error (fault.wrap ("invalid " ++ what ++ " " ++ entry.1 ++ " value " ++
        entry.2 ++ ": "))
  .ok (.ofList parsed)

/-- One container of the pod. -/
def buildContainer (settings : RuntimeSettings) (plan : WorkloadPlan)
    (entry : String × ContainerSpec) : Except GoError Container := do
  let env ← buildEnv settings plan entry.1 entry.2
  match entry.2.resources with
  | none => .ok { name := entry.1, image := entry.2.image, env }
  | some resources =>
    let requests ← parseQuantities settings "request" resources.requests
    let limits ← parseQuantities settings "limit" resources.limits
    .ok { name := entry.1, image := entry.2.image, env, requests, limits }

/-! ### Objects -/

/-- The labels of every object the runtime writes. -/
def runtimeLabels (name : String) : List (String × String) :=
  [("app.kubernetes.io/name", name), ("app.kubernetes.io/instance", name),
    ("app.kubernetes.io/managed-by", "score-orchestrator"),
    ("score.dev/workload", name), ("score.dev/runtime", "kubernetes")]

/-- The generations an object was built from. -/
def generationAnnotations (plan : WorkloadPlan) (workload : Workload) : GoMap String :=
  .ofList
    [("score.dev/workload-generation", toString workload.metadata.generation),
      ("score.dev/plan-generation", toString plan.metadata.generation)]

def selectorLabels (name : String) : GoMap String :=
  .ofList [("app.kubernetes.io/name", name), ("app.kubernetes.io/instance", name)]

/-- `buildDeployment`. -/
def buildDeployment (settings : RuntimeSettings) (plan : WorkloadPlan) (workload : Workload) :
    Except GoError Deployment := do
  let name := plan.spec.workloadRef.name
  let containers ← (settings.order.range workload.spec.containers).mapM
    (buildContainer settings plan)
  .ok
    { metadata :=
        { name
          ns := plan.spec.workloadRef.ns
          labels := .ofList (runtimeLabels name)
          annotations := generationAnnotations plan workload }
      spec :=
        { replicas := 1
          selector := selectorLabels name
          templateLabels := .ofList (runtimeLabels name)
          containers }
      status := default }

/-- One port of the Service; `index` is its place in the spec. -/
def buildServicePort (index : Nat) (port : ServicePort) : CoreServicePort where
  name := "port-" ++ toString index
  port := port.port
  targetPort := port.targetPort.getD port.port
  protocol := if port.protocol = "" then "TCP" else port.protocol

/-- `buildService`. -/
def buildService (plan : WorkloadPlan) (workload : Workload) (exposed : ServiceSpec) : Service where
  metadata :=
    { name := plan.spec.workloadRef.name
      ns := plan.spec.workloadRef.ns
      labels := .ofList (runtimeLabels plan.spec.workloadRef.name ++
        [("score.dev/exposure", "true")])
      annotations := generationAnnotations plan workload }
  spec :=
    { type := "ClusterIP"
      ports := exposed.ports.mapIdx buildServicePort
      selector := selectorLabels plan.spec.workloadRef.name }
  status := default

/-- `ctrl.SetControllerReference` with a plan as the owner of a new object. -/
def setControllerReference {Spec Status : Type} (plan : WorkloadPlan)
    (object : Resource Spec Status) : Except GoError (Resource Spec Status) :=
  if plan.metadata.ns ≠ "" && object.metadata.ns = "" then
    .error { text := "cluster-scoped resource must not have a namespace-scoped " ++
      "owner, owner's namespace " ++ plan.metadata.ns }
  else if plan.metadata.ns ≠ "" && plan.metadata.ns ≠ object.metadata.ns then
    .error { text := "cross-namespace owner references are disallowed, owner's " ++
      "namespace " ++ plan.metadata.ns ++ ", obj's namespace " ++
      object.metadata.ns }
  else
    .ok { object with
      metadata :=
        { object.metadata with
          ownerReferences :=
            [{ apiVersion := "score.dev/v1b1"
               kind := "WorkloadPlan"
               name := plan.metadata.name
               uid := plan.metadata.uid
               controller := some true
               blockOwnerDeletion := some true }] } }

/-- Does a key start with one of the owned texts? -/
def isOwnedKey (ownedPrefixes : List String) (key : String) : Bool :=
  ownedPrefixes.any fun owned => owned.toList.isPrefixOf key.toList

/-- `mergeOwnedFields`: the owned keys are replaced, all others stay. -/
def mergeOwnedFields (existing desired : GoMap String) (ownedPrefixes : List String) :
    GoMap String :=
  let foreign := (existing.keys.filter (isOwnedKey ownedPrefixes)).foldl
    (fun entries key => entries.erase key) existing
  desired.rows.foldl (fun entries entry => entries.set entry.1 entry.2) foreign

/-- `for key := range m` with a body that deletes from `m`: a key that is gone when its
turn comes is not produced. -/
def rangeDeleting (order : IterOrder) (body : String → GoMap String → GoMap String)
    (entries : GoMap String) : GoMap String :=
  (order.range entries).foldl
    (fun left entry => if (left.get? entry.1).isSome then body entry.1 left else left) entries

/-- The loop over the owned texts, which breaks off at the first that the key starts
with. -/
def deleteOwned (ownedPrefixes : List String) (key : String) (entries : GoMap String) :
    GoMap String :=
  match ownedPrefixes with
  | [] => entries
  | owned :: rest =>
    if owned.toList.isPrefixOf key.toList then entries.erase key
    else deleteOwned rest key entries

/-- The two loops of `mergeOwnedFields` as they run, each in an order of its own. -/
def mergeOwnedFieldsLoops (deleting adding : IterOrder) (existing desired : GoMap String)
    (ownedPrefixes : List String) : GoMap String :=
  (adding.range desired).foldl (fun entries entry => entries.set entry.1 entry.2)
    (rangeDeleting deleting (deleteOwned ownedPrefixes) existing)

/-- An existing object brought to the desired labels, annotations and spec. -/
def mergeInto {Spec Status : Type} (existing desired : Resource Spec Status) (spec : Spec) :
    Resource Spec Status :=
  { existing with
    metadata :=
      { existing.metadata with
        labels := mergeOwnedFields existing.metadata.labels desired.metadata.labels
          ["score.dev/", "app.kubernetes.io/"]
        annotations := mergeOwnedFields existing.metadata.annotations
          desired.metadata.annotations ["score.dev/"] }
    spec := spec }

/-! ### Semantic equality -/

/-- `equality.Semantic.DeepEqual` on containers. -/
def containerEqual (first second : Container) : Bool :=
  first.name = second.name && first.image = second.image &&
    first.command = second.command && first.args = second.args &&
    first.env = second.env && first.requests.sameEntries second.requests &&
    first.limits.sameEntries second.limits

/-- `equality.Semantic.DeepEqual` on Deployment specs. -/
def deploymentSpecEqual (first second : DeploymentSpec) : Bool :=
  first.replicas = second.replicas && first.selector.sameEntries second.selector &&
    first.templateLabels.sameEntries second.templateLabels &&
    first.containers.length = second.containers.length &&
    (first.containers.zip second.containers).all fun pair =>
      containerEqual pair.1 pair.2

/-- `equality.Semantic.DeepEqual` on Service specs. -/
def serviceSpecEqual (first second : CoreServiceSpec) : Bool :=
  first.type = second.type && first.ports = second.ports &&
    first.selector.sameEntries second.selector && first.clusterIP = second.clusterIP

/-- Is there nothing to send? -/
def upToDate {Spec Status : Type} (specEqual : Spec → Spec → Bool)
    (before existing : Resource Spec Status) : Bool :=
  specEqual before.spec existing.spec &&
    before.metadata.labels.sameEntries existing.metadata.labels &&
    before.metadata.annotations.sameEntries existing.metadata.annotations

/-! ### Reconciliation -/

/-- Create the object, or patch the one that exists to the desired state.
`noun` names the kind in error texts, and `adopt` takes over what the desired
spec must keep of the existing one. -/
def createOrPatch (kind : Kind) (noun : String) (specEqual : kind.Spec → kind.Spec → Bool)
    (adopt : kind.Spec → kind.Spec → kind.Spec) (desired : kind.Object) :
    Client (Except GoError Unit) := do
  let got ← Program.request (.get kind desired.key)
  match got with
  | .error fault =>
    if fault.isNotFound then do
      let created ← Program.request (.create kind desired)
      match created with
      | .ok _ => pure (.ok ())
      | .error fault => pure (.error (fault.wrap ("failed to create " ++ noun ++ ": ")))
    else pure (.error (fault.wrap ("failed to get " ++ noun ++ ": ")))
  | .ok before =>
    let existing : kind.Object := mergeInto before desired (adopt before.spec desired.spec)
    if upToDate specEqual before existing then pure (.ok ())
    else do
      let patched ← Program.request (.patch kind before existing)
      match patched with
      | .ok _ => pure (.ok ())
      | .error fault => pure (.error (fault.wrap ("failed to update " ++ noun ++ ": ")))

/-- `reconcileDeployment`. -/
def reconcileDeployment (settings : RuntimeSettings) (plan : WorkloadPlan) (workload : Workload) :
    Client (Except GoError Unit) :=
  match buildDeployment settings plan workload with
  | .error fault => pure (.error (fault.wrap "failed to build deployment: "))
  | .ok built =>
    match setControllerReference plan built with
    | .error fault => pure (.error (fault.wrap "failed to set controller reference: "))
    | .ok deployment =>
      createOrPatch .deployment "deployment" deploymentSpecEqual
        (fun _ desired => desired) deployment

/-- `reconcileService`.  The cluster IP of an existing Service is kept. -/
def reconcileService (plan : WorkloadPlan) (workload : Workload) : Client (Except GoError Unit) :=
  match workload.spec.service with
  | none => pure (.ok ())
  | some exposed =>
    if exposed.ports.length = 0 then pure (.ok ())
    else
      match setControllerReference plan (buildService plan workload exposed) with
      | .error fault => pure (.error (fault.wrap "failed to set controller reference: "))
      | .ok service =>
        createOrPatch .service "service" serviceSpecEqual
          (fun existing desired => { desired with clusterIP := existing.clusterIP })
          service

/-- The phase and message a plan gets from its Deployment. -/
def planStatusFrom (deployment : Deployment) : WorkloadPlanStatus :=
  if deployment.status.readyReplicas > 0 &&
      deployment.status.readyReplicas = deployment.status.replicas then
    { phase := .ready, message := "Runtime resources are ready" }
  else { phase := .provisioning, message := "Runtime deployment is starting up" }

/-- Write the status of a plan that was read before. -/
def writePlanStatus (plan : WorkloadPlan) (status : WorkloadPlanStatus) :
    Client (Except GoError Unit) := do
  let updated ← Program.request (.updateStatus .workloadPlan { plan with status })
  match updated with
  | .ok _ => pure (.ok ())
  | .error fault => pure (.error (fault.wrap "failed to update WorkloadPlan status: "))

/-- `updateWorkloadPlanStatus`. -/
def updateWorkloadPlanStatus (plan : WorkloadPlan) : Client (Except GoError Unit) := do
  let got ← Program.request (.get .deployment plan.spec.workloadRef)
  match got with
  | .ok deployment => writePlanStatus plan (planStatusFrom deployment)
  | .error fault =>
    if fault.isNotFound then
      writePlanStatus plan
        { phase := .provisioning, message := "Runtime deployment is being created" }
    else pure (.error (fault.wrap "failed to get deployment: "))

/-- The delay after a failed step, in seconds. -/
def retryDelay : Nat := 60

/-- The steps of a reconcile once plan and Workload are read.  The first error
ends them. -/
def applyPlan (settings : RuntimeSettings) (plan : WorkloadPlan) (workload : Workload) :
    Client (ReconcileResult × Option GoError) := do
  let deployed ← reconcileDeployment settings plan workload
  match deployed with
  | .error fault => pure ({ requeueAfter := retryDelay }, some fault)
  | .ok () => do
      let served ← reconcileService plan workload
      match served with
      | .error fault => pure ({ requeueAfter := retryDelay }, some fault)
      | .ok () => do
          let updated ← updateWorkloadPlanStatus plan
          match updated with
          | .error fault => pure ({ requeueAfter := retryDelay }, some fault)
          | .ok () => pure ({}, none)

/-- `KubernetesRuntimePlanReconciler.Reconcile`.  `getWorkload` reads the live
Workload, whatever generation it has by now. -/
def reconcilePlan (settings : RuntimeSettings) (key : NamespacedName) :
    Client (ReconcileResult × Option GoError) := do
  let got ← Program.request (.get .workloadPlan key)
  match got with
  | .error fault =>
    if fault.isNotFound then pure ({}, none) else pure ({}, some fault)
  | .ok plan =>
    if plan.spec.runtimeClass ≠ kubernetesRuntimeClass then pure ({}, none)
    else do
      let read ← Program.request (.get .workload plan.spec.workloadRef)
      match read with
      | .error _ => pure ({ requeueAfter := retryDelay }, none)
      | .ok workload => applyPlan settings plan workload

end ScoreOrchestrator.Runtime
