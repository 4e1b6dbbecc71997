/-
Module: Provisioner.Strategies
Purpose: The provisioning strategies for postgres, redis and secret claims and
  their selection (internal/provisioner/strategy).
Trusted boundary: human-reviewed spec
Main exports: Strategy, Selector, registerStrategies
-/
import ScoreOrchestrator.Api.Server

namespace ScoreOrchestrator.Provisioner

open Foundation

/-! ### The interface -/

/-- What `GetStatus` reports besides its error. -/
structure StrategyStatus where
  phase : ResourceClaimPhase
  reason : String
  message : String
deriving DecidableEq, Repr, Inhabited

/-- The `Strategy` interface.  Outputs are a pointer and may be nil; `GetStatus`
returns a status also with an error. -/
structure Strategy where
  getType : String
  provision : ResourceClaim → Client (Except GoError (Option ResourceClaimOutputs))
  deprovision : ResourceClaim → Client (Except GoError Unit)
  getStatus : ResourceClaim → Client (StrategyStatus × Option GoError)

/-- `strategy.Selector`, by its map of strategies. -/
structure Selector where
  strategies : String → Option Strategy

namespace Selector

/-- `NewSelector`. -/
def new : Selector := ⟨fun _ => none⟩

/-- `RegisterStrategy`. -/
def registerStrategy (selector : Selector) (strategy : Strategy) : Selector :=
  ⟨fun resourceType =>
    if resourceType = strategy.getType then some strategy
    else selector.strategies resourceType⟩

/-- `GetStrategy`. -/
def getStrategy (selector : Selector) (resourceType : String) : Except GoError Strategy :=
  match selector.strategies resourceType with
  | some strategy => .ok strategy
  | none => .error { text := "no strategy registered for resource type: " ++ resourceType }

end Selector

/-! ### Shared steps -/

/-- The outcome of `rand.Read` followed by base64 encoding: the encoded text, or
the error of the random source. -/
abbrev RandomText := Except GoError String

/-- `generateRandomPassword`. -/
def generateRandomPassword (random : RandomText) (length : Nat) : Except GoError String :=
  match random with
  | .error fault => .error fault
  | .ok encoded => .ok (String.ofList (encoded.toList.take length))

/-- `generateRandomToken`, which has a fallback for a failing random source. -/
def generateRandomToken (random : RandomText) (length : Nat) : String :=
  match random with
  | .error _ => "fallback-token-" ++ toString length
  | .ok encoded => String.ofList (encoded.toList.take length)

/-- The reference `SetControllerReference` adds for a claim. -/
def controllerReference (claim : ResourceClaim) : OwnerReference where
  apiVersion := "score.dev/v1b1"
  kind := "ResourceClaim"
  name := claim.metadata.name
  uid := claim.metadata.uid
  controller := some true
  blockOwnerDeletion := some true

/-- The metadata of an object provisioned for a claim.  `SetControllerReference`
cannot fail on it: the object is new and in the namespace of the claim. -/
def provisionedMeta (claim : ResourceClaim) (name : String) (labels : List (String × String)) :
    ObjectMeta where
  name := name
  ns := claim.metadata.ns
  labels := .ofList (("score.dev/resource-claim", claim.metadata.name) :: labels)
  ownerReferences := [controllerReference claim]

/-- Create an object unless one of its name exists, whoever that one belongs
to. -/
def createIfMissing (kind : Kind) (noun : String) (object : kind.Object) :
    Client (Except GoError Unit) := do
  let existing ← Program.request (.get kind object.key)
  match existing with
  | .ok _ => pure (.ok ())
  | .error fault =>
    if fault.isNotFound then do
      let created ← Program.request (.create kind object)
      match created with
      | .ok _ => pure (.ok ())
      | .error fault => pure (.error (fault.wrap ("failed to create " ++ noun ++ ": ")))
    else pure (.error (fault.wrap ("failed to check existing " ++ noun ++ ": ")))

/-- Delete an object; one that is gone already counts as deleted. -/
def deleteIfPresent (kind : Kind) (noun : String) (key : NamespacedName) :
    Client (Except GoError Unit) := do
  let deleted ← Program.request (.delete kind key)
  match deleted with
  | .ok () => pure (.ok ())
  | .error fault =>
    if fault.isNotFound then pure (.ok ())
    else pure (.error (fault.wrap ("failed to delete " ++ noun ++ ": ")))

/-- An object in the namespace of a claim. -/
def keyBeside (claim : ResourceClaim) (name : String) : NamespacedName where
  ns := claim.metadata.ns
  name := name

/-- The Secret with the credentials of a claim. -/
def credentials (claim : ResourceClaim) (name resourceType : String)
    (data : List (String × String)) : Secret where
  metadata := provisionedMeta claim name [("score.dev/resource-type", resourceType)]
  spec := { type := "Opaque", data := .ofList data }
  status := ()

/-- Create the Secret if it is missing and publish its name. -/
def publishSecret (secret : Secret) : Client (Except GoError (Option ResourceClaimOutputs)) :=
  (createIfMissing .secret "secret" secret).orReturn id fun _ =>
    pure (.ok (some { secretRef := some { name := secret.metadata.name } }))

/-- `GetStatus` of a strategy that provisions one Secret. -/
def secretStatus (key : NamespacedName) (noun creating available : String) :
    Client (StrategyStatus × Option GoError) := do
  let got ← Program.request (.get .secret key)
  match got with
  | .ok _ => pure ({ phase := .bound, reason := "Succeeded", message := available }, none)
  | .error fault =>
    if fault.isNotFound then
      pure ({ phase := .claiming, reason := "SecretCreating", message := creating },
        none)
    else
      pure ({ phase := .failed
              reason := "SecretAccessFailed"
              message := "Failed to access " ++ noun ++ ": " ++ fault.text },
        some fault)

/-! ### postgres -/

namespace PostgresStrategy

def statefulSetName (claim : ResourceClaim) : String := claim.metadata.name ++ "-postgres"

def serviceName (claim : ResourceClaim) : String := claim.metadata.name ++ "-postgres-service"

def secretName (claim : ResourceClaim) : String := claim.metadata.name ++ "-postgres-secret"

/-- The labels of the StatefulSet and the Service. -/
def labels (claim : ResourceClaim) : List (String × String) :=
  [("score.dev/resource-type", "postgres"), ("app", statefulSetName claim)]

def statefulSet (claim : ResourceClaim) (username password : String) : StatefulSet where
  metadata := provisionedMeta claim (statefulSetName claim) (labels claim)
  spec :=
    { serviceName := serviceName claim
      replicas := some 1
      selector := .ofList [("app", statefulSetName claim)]
      templateLabels := .ofList [("app", statefulSetName claim)]
      containerName := "postgres"
      image := "postgres:13"
      env :=
        [{ name := "POSTGRES_USER", value := username },
          { name := "POSTGRES_PASSWORD", value := password },
          { name := "POSTGRES_DB", value := "postgres" },
          { name := "PGDATA", value := "/var/lib/postgresql/data/pgdata" }]
      containerPort := 5432 }
  status := default

def service (claim : ResourceClaim) : Service where
  metadata := provisionedMeta claim (serviceName claim) (labels claim)
  spec :=
    { type := "ClusterIP"
      ports := [{ name := "postgres", port := 5432, targetPort := 5432, protocol := "TCP" }]
      selector := .ofList [("app", statefulSetName claim)] }
  status := default

def secret (claim : ResourceClaim) (username password : String) : Secret :=
  let host := serviceName claim
  let port := "5432"
  credentials claim (secretName claim) "postgres"
    [("username", username), ("password", password), ("host", host), ("port", port),
      ("database", "postgres"),
      ("uri", "postgresql://" ++ username ++ ":" ++ password ++ "@" ++ host ++ ":" ++
        port ++ "/postgres")]

/-- `createStatefulSet`. -/
def createStatefulSet (claim : ResourceClaim) (username password : String) :
    Client (Except GoError Unit) :=
  createIfMissing .statefulSet "statefulset" (statefulSet claim username password)

/-- `createService`. -/
def createService (claim : ResourceClaim) : Client (Except GoError Unit) :=
  createIfMissing .service "service" (service claim)

/-- `Provision`. -/
def provision (random : RandomText) (claim : ResourceClaim) :
    Client (Except GoError (Option ResourceClaimOutputs)) :=
  let username := "postgres"
  match generateRandomPassword random 16 with
  | .error fault => pure (.error (fault.wrap "failed to generate password: "))
  | .ok password =>
    (createStatefulSet claim username password).orReturn
      (GoError.wrap "failed to create postgres statefulset: ") fun _ =>
    (createService claim).orReturn
      (GoError.wrap "failed to create postgres service: ") fun _ =>
    publishSecret (secret claim username password)

/-- `Deprovision`. -/
def deprovision (claim : ResourceClaim) : Client (Except GoError Unit) :=
  (deleteIfPresent .statefulSet "postgres statefulset"
    (keyBeside claim (statefulSetName claim))).orReturn id fun _ =>
  (deleteIfPresent .service "postgres service"
    (keyBeside claim (serviceName claim))).orReturn id fun _ =>
  deleteIfPresent .secret "postgres secret" (keyBeside claim (secretName claim))

/-- The end of `GetStatus`: look for the Service. -/
def serviceStatus (claim : ResourceClaim) : Client (StrategyStatus × Option GoError) := do
  let got ← Program.request (.get .service (keyBeside claim (serviceName claim)))
  match got with
  | .ok _ =>
    pure ({ phase := .bound
            reason := "Succeeded"
            message := "PostgreSQL instance is ready and available" }, none)
  | .error fault =>
    if fault.isNotFound then
      pure ({ phase := .claiming
              reason := "ServiceCreating"
              message := "PostgreSQL Service is being created" }, none)
    else
      pure ({ phase := .failed
              reason := "ServiceAccessFailed"
              message := "Failed to access postgres service: " ++ fault.text },
        some fault)

/-- The middle of `GetStatus`: look for the StatefulSet and its replicas.  A
StatefulSet without a number of replicas is a nil dereference. -/
def statefulSetStatus (claim : ResourceClaim) : Client (StrategyStatus × Option GoError) := do
  let got ← Program.request
    (.get .statefulSet (keyBeside claim (statefulSetName claim)))
  match got with
  | .ok statefulSet =>
    match statefulSet.spec.replicas with
    | none => .crash "invalid memory address or nil pointer dereference"
    | some replicas =>
      if statefulSet.status.readyReplicas < replicas then
        pure ({ phase := .claiming
                reason := "StatefulSetNotReady"
                message := "PostgreSQL StatefulSet is not ready yet" }, none)
      else serviceStatus claim
  | .error fault =>
    if fault.isNotFound then
      pure ({ phase := .claiming
              reason := "StatefulSetCreating"
              message := "PostgreSQL StatefulSet is being created" }, none)
    else
      pure ({ phase := .failed
              reason := "StatefulSetAccessFailed"
              message := "Failed to access postgres statefulset: " ++ fault.text },
        some fault)

/-- `GetStatus`. -/
def getStatus (claim : ResourceClaim) : Client (StrategyStatus × Option GoError) := do
  let got ← Program.request (.get .secret (keyBeside claim (secretName claim)))
  match got with
  | .ok _ => statefulSetStatus claim
  | .error fault =>
    if fault.isNotFound then
      pure ({ phase := .claiming
              reason := "ResourcesCreating"
              message := "PostgreSQL resources are being created" }, none)
    else
      pure ({ phase := .failed
              reason := "SecretAccessFailed"
              message := "Failed to access postgres secret: " ++ fault.text },
        some fault)

end PostgresStrategy

/-! ### redis -/

namespace RedisStrategy

def secretName (claim : ResourceClaim) : String := claim.metadata.name ++ "-redis-secret"

def secret (claim : ResourceClaim) (password : String) : Secret :=
  let host := claim.metadata.name ++ "-redis-service"
  let port := "6379"
  credentials claim (secretName claim) "redis"
    [("password", password), ("host", host), ("port", port),
      ("uri", "redis://:" ++ password ++ "@" ++ host ++ ":" ++ port)]

/-- `Provision`. -/
def provision (random : RandomText) (claim : ResourceClaim) :
    Client (Except GoError (Option ResourceClaimOutputs)) :=
  match generateRandomPassword random 16 with
  | .error fault => pure (.error (fault.wrap "failed to generate password: "))
  | .ok password => publishSecret (secret claim password)

/-- `Deprovision`. -/
def deprovision (claim : ResourceClaim) : Client (Except GoError Unit) :=
  deleteIfPresent .secret "redis secret" (keyBeside claim (secretName claim))

/-- `GetStatus`. -/
def getStatus (claim : ResourceClaim) : Client (StrategyStatus × Option GoError) :=
  secretStatus (keyBeside claim (secretName claim)) "redis secret"
    "Redis secret is being created" "Redis credentials are available"

end RedisStrategy

/-! ### secret -/

namespace SecretStrategy

def secretName (claim : ResourceClaim) : String := claim.metadata.name ++ "-secret"

def secret (claim : ResourceClaim) (token : String) : Secret :=
  credentials claim (secretName claim) "secret" [("username", "user"), ("token", token)]

/-- `Provision`. -/
def provision (random : RandomText) (claim : ResourceClaim) :
    Client (Except GoError (Option ResourceClaimOutputs)) :=
  publishSecret (secret claim (generateRandomToken random 32))

/-- `Deprovision`. -/
def deprovision (claim : ResourceClaim) : Client (Except GoError Unit) :=
  deleteIfPresent .secret "secret" (keyBeside claim (secretName claim))

/-- `GetStatus`. -/
def getStatus (claim : ResourceClaim) : Client (StrategyStatus × Option GoError) :=
  secretStatus (keyBeside claim (secretName claim)) "secret"
    "Secret is being created" "Secret is available"

end SecretStrategy

/-! ### Registration -/

def postgresStrategy (random : RandomText) : Strategy where
  getType := "postgres"
  provision := PostgresStrategy.provision random
  deprovision := PostgresStrategy.deprovision
  getStatus := PostgresStrategy.getStatus

def redisStrategy (random : RandomText) : Strategy where
  getType := "redis"
  provision := RedisStrategy.provision random
  deprovision := RedisStrategy.deprovision
  getStatus := RedisStrategy.getStatus

def secretStrategy (random : RandomText) : Strategy where
  getType := "secret"
  provision := SecretStrategy.provision random
  deprovision := SecretStrategy.deprovision
  getStatus := SecretStrategy.getStatus

/-- `registerStrategies`. -/
def registerStrategies (random : RandomText) : Selector :=
  ((Selector.new.registerStrategy (postgresStrategy random)).registerStrategy
    (redisStrategy random)).registerStrategy (secretStrategy random)

end ScoreOrchestrator.Provisioner
