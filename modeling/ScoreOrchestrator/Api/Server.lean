/-
Module: Api.Server
Purpose: The API server as the controllers see it: the calls of a
  controller-runtime client, the stored objects, what each call does, and the
  servers that fail calls or list earlier snapshots.
Trusted boundary: human-reviewed spec
Main exports: Kind, Call, Client, Store, serve, apiServer
-/
import Mathlib.Logic.Function.Basic
import ScoreOrchestrator.Api.Types
import ScoreOrchestrator.Foundation.Program

namespace ScoreOrchestrator

open Foundation

/-! ### Kinds and calls -/

/-- The kinds of objects in the store. -/
inductive Kind where
  | workload
  | resourceClaim
  | workloadPlan
  | workloadExposure
  | secret
  | statefulSet
  | service
  | deployment
deriving DecidableEq, Repr, Inhabited

namespace Kind

@[reducible] def Spec : Kind → Type
  | .workload => WorkloadSpec
  | .resourceClaim => ResourceClaimSpec
  | .workloadPlan => WorkloadPlanSpec
  | .workloadExposure => WorkloadExposureSpec
  | .secret => SecretSpec
  | .statefulSet => StatefulSetSpec
  | .service => CoreServiceSpec
  | .deployment => DeploymentSpec

@[reducible] def Status : Kind → Type
  | .workload => WorkloadStatus
  | .resourceClaim => ResourceClaimStatus
  | .workloadPlan => WorkloadPlanStatus
  | .workloadExposure => WorkloadExposureStatus
  | .secret => Unit
  | .statefulSet => StatefulSetStatus
  | .service => CoreServiceStatus
  | .deployment => DeploymentStatus

abbrev Object (kind : Kind) : Type := Resource kind.Spec kind.Status

instance (kind : Kind) : DecidableEq kind.Spec := by
  cases kind <;> exact inferInstance

instance (kind : Kind) : DecidableEq kind.Status := by
  cases kind <;> exact inferInstance

instance (kind : Kind) : Inhabited kind.Status := by
  cases kind <;> exact inferInstance

/-- The resource name in API error texts. -/
def plural : Kind → String
  | .workload => "workloads.score.dev"
  | .resourceClaim => "resourceclaims.score.dev"
  | .workloadPlan => "workloadplans.score.dev"
  | .workloadExposure => "workloadexposures.score.dev"
  | .secret => "secrets"
  | .statefulSet => "statefulsets.apps"
  | .service => "services"
  | .deployment => "deployments.apps"

end Kind

/-- The list options the controllers use: a field index, or labels within one
namespace. -/
inductive ListSelector where
  | matchingFields (field value : String)
  | inNamespaceMatchingLabels (ns : String) (labels : List (String × String))
deriving DecidableEq, Repr

/-- The calls of a controller-runtime client.  A patch carries the object it
was computed against and the modified one. -/
inductive Call : Type → Type where
  | get (kind : Kind) (key : NamespacedName) : Call kind.Object
  | list (kind : Kind) (selector : ListSelector) : Call (List kind.Object)
  | create (kind : Kind) (object : kind.Object) : Call kind.Object
  | update (kind : Kind) (object : kind.Object) : Call kind.Object
  | updateStatus (kind : Kind) (object : kind.Object) : Call kind.Object
  | patch (kind : Kind) (base modified : kind.Object) : Call kind.Object
  | patchStatus (kind : Kind) (base modified : kind.Object) : Call kind.Object
  | delete (kind : Kind) (key : NamespacedName) : Call Unit

namespace Call

/-- The kind a call is about. -/
def kind {answer : Type} : Call answer → Kind
  | .get kind _ | .list kind _ | .create kind _ | .update kind _
  | .updateStatus kind _ | .patch kind _ _ | .patchStatus kind _ _
  | .delete kind _ => kind

/-- `get` and `list`. -/
def isRead {answer : Type} : Call answer → Bool
  | .get _ _ | .list _ _ => true
  | _ => false

/-- `list`. -/
def isList {answer : Type} : Call answer → Bool
  | .list _ _ => true
  | _ => false

/-- The object of the given kind that a `get` returned. -/
def fetched (wanted : Kind) {answer : Type} :
    Call answer → Except GoError answer → Option wanted.Object
  | .get kind _ => fun reply =>
    if same : kind = wanted then same ▸ reply.toOption else none
  | _ => fun _ => none

/-- The objects of the given kind that a `list` returned. -/
def listed (wanted : Kind) {answer : Type} :
    Call answer → Except GoError answer → Option (List wanted.Object)
  | .list kind _ => fun reply =>
    if same : kind = wanted then same ▸ reply.toOption else none
  | _ => fun _ => none

/-- The object of the given kind that a status update sends. -/
def sentStatus (wanted : Kind) {answer : Type} :
    Call answer → Option wanted.Object
  | .updateStatus kind object =>
    if same : kind = wanted then some (same ▸ object) else none
  | _ => none

/-- A merge patch of metadata and spec. -/
def isPatch {answer : Type} : Call answer → Bool
  | .patch _ _ _ => true
  | _ => false

/-- A merge patch of a status. -/
def isStatusPatch {answer : Type} : Call answer → Bool
  | .patchStatus _ _ _ => true
  | _ => false

/-- The objects of the given kind between which a merge patch of a status is the
difference: the one read and the modified one. -/
def patchedStatus (wanted : Kind) {answer : Type} :
    Call answer → Option (wanted.Object × wanted.Object)
  | .patchStatus kind base modified =>
    if same : kind = wanted then some (same ▸ base, same ▸ modified) else none
  | _ => none

/-- Does the call leave the status of every stored object of a kind alone and create
none? -/
def leavesStatus (wanted : Kind) {answer : Type} : Call answer → Bool
  | .create kind _ | .updateStatus kind _ | .patchStatus kind _ _ => kind ≠ wanted
  | _ => true

/-- Does the call create an object of the given kind? -/
def creates (wanted : Kind) {answer : Type} : Call answer → Bool
  | .create kind _ => kind = wanted
  | _ => false

/-- The key of the object of the given kind that the call asks to delete. -/
def deletes (wanted : Kind) {answer : Type} : Call answer → Option NamespacedName
  | .delete kind key => if kind = wanted then some key else none
  | _ => none

/-- The object of the given kind that a call writes outside the status. -/
def written (wanted : Kind) {answer : Type} : Call answer → Option wanted.Object
  | .create kind object | .update kind object | .patch kind _ object =>
    if same : kind = wanted then some (same ▸ object) else none
  | _ => none

end Call

/-- A controller: a program over the client's calls. -/
abbrev Client (α : Type) := Program Call GoError α

/-! ### The store -/

/-- `true` once an object is marked for deletion and nothing holds it back. -/
def Resource.isReleased {Spec Status : Type} (object : Resource Spec Status) : Bool :=
  object.metadata.deletionTimestamp.isSome && object.metadata.finalizers.isEmpty

/-- The stored objects of each kind, and the revision counter behind every
resource version.  A released object is never stored, and no stored version is
ahead of the counter. -/
structure Store where
  table : (kind : Kind) → Table (Resource.key : kind.Object → NamespacedName)
  revision : Nat
  live : ∀ kind, ∀ object ∈ (table kind).rows, object.isReleased = false
  stamped : ∀ kind, ∀ object ∈ (table kind).rows,
    object.metadata.resourceVersion ≤ revision

/-- A call to a server with such states, and its answer. -/
abbrev EventOn (State : Type) := Event Call GoError State

/-- A call to the cluster, with its answer. -/
abbrev ApiEvent := EventOn Store

/-- What serves the calls of a client. -/
abbrev Server (State : Type) := Foundation.Service Call GoError State

namespace Store

/-- The cluster with nothing in it. -/
def empty : Store where
  table _ := .empty
  revision := 0
  live _ _ member := nomatch member
  stamped _ _ member := nomatch member

/-- The stored object of a kind under a key. -/
def find? (store : Store) (kind : Kind) (key : NamespacedName) : Option kind.Object :=
  (store.table kind).find? key

/-- Replace the table of one kind at the next revision. -/
def write (store : Store) (kind : Kind) (rows : Table (Resource.key : kind.Object → NamespacedName))
    (live : ∀ object ∈ rows.rows, object.isReleased = false)
    (stamped : ∀ object ∈ rows.rows, object.metadata.resourceVersion ≤ store.revision + 1) :
    Store where
  table := Function.update store.table kind rows
  revision := store.revision + 1
  live other := by
    by_cases same : other = kind
    · subst same
      simpa using live
    · simpa [Function.update_of_ne same] using store.live other
  stamped other := by
    by_cases same : other = kind
    · subst same
      simpa using stamped
    · intro object member
      rw [Function.update_of_ne same] at member
      exact Nat.le_succ_of_le (store.stamped other object member)

section

variable {store : Store} {kind : Kind}
  {rows : Table (Resource.key : kind.Object → NamespacedName)}
  {live : ∀ object ∈ rows.rows, object.isReleased = false}
  {stamped : ∀ object ∈ rows.rows,
    object.metadata.resourceVersion ≤ store.revision + 1}

@[simp] theorem write_table_self : (store.write kind rows live stamped).table kind = rows := by
  simp [write]

theorem write_table_of_ne {other : Kind} (different : other ≠ kind) :
    (store.write kind rows live stamped).table other = store.table other := by
  simp [write, Function.update_of_ne different]

end

/-- Drop the object under a key. -/
def remove (store : Store) (kind : Kind) (key : NamespacedName) : Store :=
  store.write kind ((store.table kind).erase key)
    (fun object member => store.live kind object (Table.mem_erase.mp member).1)
    (fun object member =>
      Nat.le_succ_of_le (store.stamped kind object (Table.mem_erase.mp member).1))

/-- The object as stored at a revision. -/
def stamp {Spec Status : Type} (revision : Nat) (object : Resource Spec Status) :
    Resource Spec Status :=
  { object with
    metadata := { object.metadata with resourceVersion := revision } }

/-- Write an object at the next revision; an object that is marked for deletion
and has no finalizer left goes away instead. -/
def commit (store : Store) (kind : Kind) (object : kind.Object) : kind.Object × Store :=
  let stamped : kind.Object := stamp (store.revision + 1) object
  (stamped,
    if released : stamped.isReleased then store.remove kind object.key
    else
      store.write kind ((store.table kind).put stamped)
        (by
          intro other member
          rcases Table.mem_put.mp member with rfl | ⟨old, _⟩
          · simpa using released
          · exact store.live kind other old)
        (by
          intro other member
          rcases Table.mem_put.mp member with rfl | ⟨old, _⟩
          · exact Nat.le_refl _
          · exact Nat.le_succ_of_le (store.stamped kind other old)))

/-- A cluster set up with one more object. -/
def insert (store : Store) (kind : Kind) (object : kind.Object) : Store :=
  (store.commit kind object).2

end Store

/-! ### What the server computes -/

/-- The stored object after an update: the client's metadata and spec, the
server's identity, deletion mark and status.  A changed spec is a new
generation. -/
def Resource.updatedBy {Spec Status : Type} [DecidableEq Spec]
    (stored object : Resource Spec Status) : Resource Spec Status where
  metadata :=
    { stored.metadata with
      labels := object.metadata.labels
      annotations := object.metadata.annotations
      ownerReferences := object.metadata.ownerReferences
      finalizers := object.metadata.finalizers
      generation :=
        if object.spec = stored.spec then stored.metadata.generation
        else stored.metadata.generation + 1 }
  spec := object.spec
  status := stored.status

/-- The stored object after a status update. -/
def Resource.statusUpdatedBy {Spec Status : Type} (stored object : Resource Spec Status) :
    Resource Spec Status :=
  { stored with status := object.status }

/-- A JSON merge patch on one field: only a field that the client changed is
sent. -/
def mergeField {α : Type} [DecidableEq α] (base modified stored : α) : α :=
  if modified = base then stored else modified

/-- A JSON merge patch on a map: changed keys are set, dropped keys removed. -/
def mergeMap (base modified stored : GoMap String) : GoMap String :=
  let dropped := base.keys.filter fun key => (modified.get? key).isNone
  let kept := dropped.foldl (fun entries key => entries.erase key) stored
  modified.rows.foldl
    (fun entries entry =>
      if base.get? entry.1 = some entry.2 then entries
      else entries.set entry.1 entry.2)
    kept

/-- The metadata part of a merge patch. -/
def mergeMetadata (base modified stored : ObjectMeta) : ObjectMeta :=
  { stored with
    labels := mergeMap base.labels modified.labels stored.labels
    annotations := mergeMap base.annotations modified.annotations
      stored.annotations
    ownerReferences := mergeField base.ownerReferences modified.ownerReferences
      stored.ownerReferences
    finalizers := mergeField base.finalizers modified.finalizers
      stored.finalizers }

/-- The spec part of a merge patch.  Objects are merged field by field, arrays
replaced whole.  Only exposures, Deployments and Services are ever patched. -/
def mergeSpec : (kind : Kind) → kind.Spec → kind.Spec → kind.Spec → kind.Spec
  | .workloadExposure, base, modified, stored =>
    { workloadRef :=
        { name := mergeField base.workloadRef.name modified.workloadRef.name
            stored.workloadRef.name
          ns := mergeField base.workloadRef.ns modified.workloadRef.ns
            stored.workloadRef.ns
          uid := mergeField base.workloadRef.uid modified.workloadRef.uid
            stored.workloadRef.uid }
      observedWorkloadGeneration :=
        mergeField base.observedWorkloadGeneration
          modified.observedWorkloadGeneration stored.observedWorkloadGeneration
      runtimeClass := mergeField base.runtimeClass modified.runtimeClass
        stored.runtimeClass }
  | .deployment, base, modified, stored =>
    { replicas := mergeField base.replicas modified.replicas stored.replicas
      selector := mergeMap base.selector modified.selector stored.selector
      templateLabels := mergeMap base.templateLabels modified.templateLabels
        stored.templateLabels
      containers := mergeField base.containers modified.containers
        stored.containers }
  | .service, base, modified, stored =>
    { type := mergeField base.type modified.type stored.type
      ports := mergeField base.ports modified.ports stored.ports
      selector := mergeMap base.selector modified.selector stored.selector
      clusterIP := mergeField base.clusterIP modified.clusterIP
        stored.clusterIP }
  | _, base, modified, stored => mergeField base modified stored

/-- The status part of a merge patch.  Only Workloads are ever patched. -/
def mergeStatus :
    (kind : Kind) → kind.Status → kind.Status → kind.Status → kind.Status
  | .workload, base, modified, stored =>
    { endpoint := mergeField base.endpoint modified.endpoint stored.endpoint
      conditions := mergeField base.conditions modified.conditions
        stored.conditions
      claims := mergeField base.claims modified.claims stored.claims }
  | _, base, modified, stored => mergeField base modified stored

/-- The field indexes registered by `SetupIndexers`. -/
def indexValue : (kind : Kind) → String → kind.Object → Option String
  | .resourceClaim, "resourceclaim.workloadRef", claim =>
    some (claim.spec.workloadRef.ns ++ "/" ++ claim.spec.workloadRef.name)
  | .workloadPlan, "workloadplan.workloadRef", plan =>
    some (plan.spec.workloadRef.ns ++ "/" ++ plan.spec.workloadRef.name)
  | _, _, _ => none

/-- Does an object match a list selector? -/
def ListSelector.selects (kind : Kind) (object : kind.Object) :
    ListSelector → Bool
  | .matchingFields field value => indexValue kind field object = some value
  | .inNamespaceMatchingLabels ns labels =>
    object.metadata.ns = ns &&
      labels.all fun label =>
        object.metadata.labels.get? label.1 = some label.2

namespace GoError

def objectNotFound (kind : Kind) (key : NamespacedName) : GoError :=
  { text := kind.plural ++ " \"" ++ key.name ++ "\" not found"
    reason := .notFound }

def objectExists (kind : Kind) (key : NamespacedName) : GoError :=
  { text := kind.plural ++ " \"" ++ key.name ++ "\" already exists"
    reason := .alreadyExists }

def objectModified (kind : Kind) (key : NamespacedName) : GoError :=
  { text := "Operation cannot be fulfilled on " ++ kind.plural ++ " \"" ++
      key.name ++ "\": the object has been modified; please apply your " ++
      "changes to the latest version and try again"
    reason := .conflict }

end GoError

namespace Store

/-- Write the next version of a stored object; writing it unchanged is no
write. -/
def replace (store : Store) (kind : Kind) (stored next : kind.Object) :
    Except GoError kind.Object × Store :=
  if next = stored then (.ok stored, store)
  else (.ok (store.commit kind next).1, (store.commit kind next).2)

/-- Write under optimistic locking: only the version that was read may be
replaced. -/
def replaceRead (store : Store) (kind : Kind) (object : kind.Object)
    (next : kind.Object → kind.Object) : Except GoError kind.Object × Store :=
  match store.find? kind object.key with
  | none => (.error (.objectNotFound kind object.key), store)
  | some stored =>
    if object.metadata.resourceVersion = stored.metadata.resourceVersion then
      store.replace kind stored (next stored)
    else (.error (.objectModified kind object.key), store)

/-- Write whatever version is stored. -/
def replaceAny (store : Store) (kind : Kind) (key : NamespacedName)
    (next : kind.Object → kind.Object) : Except GoError kind.Object × Store :=
  match store.find? kind key with
  | none => (.error (.objectNotFound kind key), store)
  | some stored => store.replace kind stored (next stored)

end Store

/-- The object a create stores: a fresh identity, generation one, no status. -/
def Resource.created {Spec Status : Type} [Inhabited Status] (revision : Nat)
    (object : Resource Spec Status) : Resource Spec Status where
  metadata :=
    { object.metadata with
      uid := "uid-" ++ toString (revision + 1)
      generation := 1
      deletionTimestamp := none }
  spec := object.spec
  status := default

/-- The stored object after a merge patch. -/
def Resource.patchedBy (kind : Kind) (base modified stored : kind.Object) : kind.Object :=
  let spec := mergeSpec kind base.spec modified.spec stored.spec
  { metadata :=
      { mergeMetadata base.metadata modified.metadata stored.metadata with
        generation :=
          if spec = stored.spec then stored.metadata.generation
          else stored.metadata.generation + 1 }
    spec := spec
    status := stored.status }

/-- The stored object after a merge patch of its status. -/
def Resource.statusPatchedBy (kind : Kind) (base modified stored : kind.Object) : kind.Object :=
  { stored with
    status := mergeStatus kind base.status modified.status stored.status }

/-- The stored object after a delete request that its finalizers hold back.
The first request marks it and counts as a new generation. -/
def Resource.markedForDeletion {Spec Status : Type} (now : Time) (stored : Resource Spec Status) :
    Resource Spec Status :=
  if stored.isBeingDeleted then stored
  else
    { stored with
      metadata :=
        { stored.metadata with
          deletionTimestamp := some now
          generation := stored.metadata.generation + 1 } }

/-- Carry out one call on the current store. -/
def serve {answer : Type} :
    Call answer → Store → Except GoError answer × Store
  | .get kind key, store =>
    match store.find? kind key with
    | some object => (.ok object, store)
    | none => (.error (.objectNotFound kind key), store)
  | .list kind selector, store =>
    (.ok ((store.table kind).rows.filter (selector.selects kind)), store)
  | .create kind object, store =>
    match store.find? kind object.key with
    | some _ => (.error (.objectExists kind object.key), store)
    | none =>
      (.ok (store.commit kind (object.created store.revision)).1,
        (store.commit kind (object.created store.revision)).2)
  | .update kind object, store =>
    store.replaceRead kind object fun stored => stored.updatedBy object
  | .updateStatus kind object, store =>
    store.replaceRead kind object fun stored => stored.statusUpdatedBy object
  | .patch kind base modified, store =>
    store.replaceAny kind modified.key (Resource.patchedBy kind base modified)
  | .patchStatus kind base modified, store =>
    store.replaceAny kind modified.key
      (Resource.statusPatchedBy kind base modified)
  | .delete kind key, store =>
    match store.find? kind key with
    | none => (.error (.objectNotFound kind key), store)
    | some stored =>
      if stored.metadata.finalizers = [] then
        (.ok (), store.remove kind key)
      else
        (.ok (),
          (store.replace kind stored
            (stored.markedForDeletion store.revision)).2)

/-! ### Servers -/

/-- The API server: it carries out a call, or fails it without effect. -/
def apiServer : Server Store := .unreliable serve

/-- The API server whose answers are current: it may fail a call, but says that an object
is not found only if it is not there. -/
def truthfulServer : Server Store :=
  fun _ request before reply after =>
    serve request before = (reply, after) ∨
      (∃ fault, reply = .error fault ∧ fault.isNotFound = false) ∧ after = before

/-- The API server on a day when every call is carried out. -/
def healthyServer : Server Store := .reliable serve

/-- Two answers to a call that differ at most in the order of a list. -/
def Call.SameUpToOrder {answer : Type} :
    Call answer → Except GoError answer → Except GoError answer → Prop
  | .list _ _, .ok listed, .ok other => other.Perm listed
  | _, reply, other => other = reply

/-- The same server behind an informer: a list comes in any order. -/
def shufflingServer : Server Store :=
  fun _ request before reply after =>
    ∃ answered, healthyServer request before answered after ∧
      request.SameUpToOrder answered reply

/-- The cluster behind a cached client: the store and its earlier snapshots. -/
structure CachedStore where
  current : Store
  past : List Store

/-- Carry out one call; a list is answered from the given snapshot. -/
def serveFrom (snapshot : Store) {answer : Type} (request : Call answer) (cluster : CachedStore) :
    Except GoError answer × CachedStore :=
  if request.isList then ((serve request snapshot).1, cluster)
  else
    ((serve request cluster.current).1,
      { current := (serve request cluster.current).2
        past := cluster.current :: cluster.past })

/-- The API server behind a cached client: a list may be answered from any
snapshot so far. -/
def cachedServer : Server CachedStore :=
  fun _ request before reply after =>
    ∃ snapshot ∈ before.current :: before.past,
      Foundation.Service.unreliable (serveFrom snapshot) request before reply after

/-- The API server behind caches that lag: any read may be answered from any store so
far, and every write meets the current one. -/
def laggingServer : Server CachedStore :=
  fun _ request before reply after =>
    if request.isRead then
      (∃ seen ∈ before.current :: before.past, apiServer request seen reply seen) ∧
        after = before
    else
      apiServer request before.current reply after.current ∧
        after.past = before.current :: before.past

end ScoreOrchestrator
