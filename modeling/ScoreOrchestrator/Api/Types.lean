/-
Module: Api.Types
Purpose: The data model of api/v1b1 and the parts of the Kubernetes core types
  that the controllers read or write.
Trusted boundary: human-reviewed spec
Main exports: GoMap, GoError, Resource, Workload, ResourceClaim, WorkloadPlan, WorkloadExposure
-/
import ScoreOrchestrator.Foundation.Table

namespace ScoreOrchestrator

open Foundation

/-! ### Go values -/

/-- A Go `map[string]V`: entries with distinct keys.  The entry order stands for
nothing in the source; loops take theirs from an `IterOrder`. -/
abbrev GoMap (V : Type) := Table (Prod.fst : String × V → String)

namespace GoMap

variable {V : Type}

/-- `m[key]` with its `ok` flag. -/
def get? (entries : GoMap V) (key : String) : Option V := (entries.find? key).map Prod.snd

/-- `m[key] = value`. -/
def set (entries : GoMap V) (key : String) (value : V) : GoMap V := entries.put (key, value)

/-- The keys, in entry order. -/
def keys (entries : GoMap V) : List String := entries.rows.map Prod.fst

/-- Equality of Go maps: the same entries, in whatever order. -/
def sameEntries [DecidableEq V] (first second : GoMap V) : Bool :=
  first.rows.all (fun entry => second.get? entry.1 = some entry.2) &&
    second.rows.all (fun entry => first.get? entry.1 = some entry.2)

/-- A map literal. -/
def ofList (entries : List (String × V)) : GoMap V := Table.ofRows entries

@[simp] theorem get?_set_self (entries : GoMap V) (key : String) (value : V) :
    (entries.set key value).get? key = some value := by
  have found := Table.find?_put_self entries (key, value)
  simp only [get?, set]
  rw [found]
  rfl

theorem get?_set_of_ne (entries : GoMap V) {key other : String} (value : V)
    (different : other ≠ key) : (entries.set key value).get? other = entries.get? other := by
  have same : (Table.put entries (key, value)).find? other = entries.find? other :=
    Table.find?_put_of_ne entries different
  simp only [get?, set]
  rw [same]

theorem get?_set (entries : GoMap V) (key : String) (value : V) (other : String) :
    (entries.set key value).get? other =
      if other = key then some value else entries.get? other := by
  split
  next same => rw [same, get?_set_self]
  next different => rw [get?_set_of_ne entries value different]

theorem get?_eq_some {entries : GoMap V} {key : String} {value : V} :
    entries.get? key = some value ↔ (key, value) ∈ entries.rows := by
  simp only [get?, Option.map_eq_some_iff]
  constructor
  · rintro ⟨⟨found, held⟩, lookup, rfl⟩
    obtain ⟨member, rfl⟩ := Table.find?_eq_some.mp lookup
    exact member
  · intro member
    exact ⟨(key, value), Table.find?_of_mem member, rfl⟩

/-- Lookup in a map literal. -/
theorem get?_ofList (entries : List (String × V)) (key : String) :
    (ofList entries).get? key =
      (entries.reverse.find? fun entry => entry.1 = key).map Prod.snd := by
  rw [get?, ofList, Table.find?_ofRows]

/-- A later entry of a map literal comes first. -/
theorem get?_ofList_cons (entry : String × V) (rest : List (String × V)) (key : String) :
    (ofList (entry :: rest)).get? key =
      ((ofList rest).get? key).or (if key = entry.1 then some entry.2 else none) := by
  rw [get?_ofList, get?_ofList, List.reverse_cons, List.find?_append]
  cases rest.reverse.find? fun entry => entry.1 = key with
  | some found => rfl
  | none =>
    by_cases same : key = entry.1
    · simp [same]
    · simp [same, Ne.symm same]

/-- Lookup in a map literal with distinct keys. -/
theorem get?_ofList_eq_some {entries : List (String × V)} (distinct : (entries.map Prod.fst).Nodup)
    {key : String} {value : V} :
    (ofList entries).get? key = some value ↔ (key, value) ∈ entries := by
  rw [get?_ofList, Option.map_eq_some_iff]
  constructor
  · rintro ⟨⟨name, held⟩, found, rfl⟩
    have named : name = key := by simpa using List.find?_some found
    rw [← named]
    exact List.mem_reverse.mp (List.mem_of_find?_eq_some found)
  · intro member
    cases found : entries.reverse.find? fun entry => entry.1 = key with
    | none =>
      have absent := List.find?_eq_none.mp found _ (List.mem_reverse.mpr member)
      simp at absent
    | some other =>
      have named : other.1 = key := by simpa using List.find?_some found
      have otherMember := List.mem_reverse.mp (List.mem_of_find?_eq_some found)
      have same := List.inj_on_of_nodup_map distinct otherMember member named
      exact ⟨other, rfl, by rw [same]⟩

/-- Maps with the same entries are looked up alike. -/
theorem sameEntries_iff [DecidableEq V] {first second : GoMap V} :
    first.sameEntries second = true ↔ ∀ key, first.get? key = second.get? key := by
  simp only [sameEntries, Bool.and_eq_true, List.all_eq_true, decide_eq_true_eq]
  constructor
  · rintro ⟨forwards, backwards⟩ key
    apply Option.ext
    intro value
    constructor
    · exact fun found => forwards _ (get?_eq_some.mp found)
    · exact fun found => backwards _ (get?_eq_some.mp found)
  · intro alike
    constructor
    · intro entry member
      rw [← alike]
      exact get?_eq_some.mpr member
    · intro entry member
      rw [alike]
      exact get?_eq_some.mpr member

theorem get?_erase (entries : GoMap V) (unwanted key : String) :
    GoMap.get? (entries.erase unwanted) key =
      if key = unwanted then none else entries.get? key := by
  split
  next same =>
    rw [get?, same, Option.map_eq_none_iff, Table.find?_eq_none]
    exact fun row member => (Table.mem_erase.mp member).2
  next different => rw [get?, Table.find?_erase_of_ne _ different, get?]

theorem get?_foldl_erase (unwanted : List String) (entries : GoMap V) (key : String) :
    GoMap.get? (unwanted.foldl (fun rest name => rest.erase name) entries) key =
      if key ∈ unwanted then none else entries.get? key := by
  induction unwanted generalizing entries with
  | nil => simp
  | cons name rest ih =>
    rw [List.foldl_cons, ih, get?_erase]
    by_cases later : key ∈ rest
    · simp [later]
    · by_cases same : key = name <;> simp [later, same]

/-- Setting the entries of a list. -/
theorem get?_foldl_set (updates : List (String × V)) (entries : GoMap V) (key : String) :
    GoMap.get? (updates.foldl (fun rest entry => rest.set entry.1 entry.2) entries) key =
      ((ofList updates).get? key).or (entries.get? key) := by
  have put : (updates.foldl (fun rest entry => rest.set entry.1 entry.2) entries) =
      updates.foldl Table.put entries := rfl
  rw [put, get?, Table.find?_foldl_put, get?_ofList, get?]
  cases updates.reverse.find? fun entry => entry.1 = key <;> rfl

/-- The entries of a map make up that map. -/
theorem get?_ofList_rows (entries : GoMap V) (key : String) :
    (ofList entries.rows).get? key = entries.get? key := by
  apply Option.ext
  intro value
  rw [get?_ofList_eq_some entries.nodup, get?_eq_some]

/-- Lookup in a map made from another one value by value. -/
theorem get?_ofList_map {W : Type} (entries : GoMap V) (change : V → W) (key : String) :
    (ofList (entries.rows.map fun entry => (entry.1, change entry.2))).get? key =
      (entries.get? key).map change := by
  have distinct : ((entries.rows.map fun entry => (entry.1, change entry.2)).map
      Prod.fst).Nodup := by
    simpa [Function.comp_def] using entries.nodup
  apply Option.ext
  intro value
  rw [get?_ofList_eq_some distinct, Option.map_eq_some_iff]
  constructor
  · intro member
    obtain ⟨⟨name, held⟩, listed, same⟩ := List.mem_map.mp member
    cases same
    exact ⟨held, get?_eq_some.mpr listed, rfl⟩
  · rintro ⟨held, found, rfl⟩
    exact List.mem_map.mpr ⟨(key, held), get?_eq_some.mp found, rfl⟩

end GoMap

/-- The order in which one run iterates over each of its maps.  Go leaves it
open, so nothing more is known of it. -/
structure IterOrder where
  arrange : {V : Type} → List (String × V) → List (String × V)
  perm : ∀ {V : Type} (entries : List (String × V)),
    (arrange entries).Perm entries

namespace IterOrder

/-- `for key, value := range m`. -/
def range {V : Type} (order : IterOrder) (entries : GoMap V) : List (String × V) :=
  order.arrange entries.rows

theorem mem_range {V : Type} {order : IterOrder} {entries : GoMap V} {entry : String × V} :
    entry ∈ order.range entries ↔ entry ∈ entries.rows :=
  (order.perm entries.rows).mem_iff

theorem nodup_range {V : Type} (order : IterOrder) (entries : GoMap V) :
    ((order.range entries).map Prod.fst).Nodup :=
  (((order.perm entries.rows).map Prod.fst).nodup_iff).mpr entries.nodup

/-- What is ranged over makes up the map. -/
theorem get?_ofList_range {V : Type} (order : IterOrder) (entries : GoMap V) (key : String) :
    (GoMap.ofList (order.range entries)).get? key = entries.get? key := by
  apply Option.ext
  intro value
  rw [GoMap.get?_ofList_eq_some (order.nodup_range entries), mem_range, GoMap.get?_eq_some]

/-- Iteration in entry order. -/
def entryOrder : IterOrder := ⟨fun entries => entries, fun _ => .refl _⟩

/-- Iteration that begins with one key. -/
def beginWith (key : String) : IterOrder where
  arrange entries :=
    entries.filter (fun entry => entry.1 = key) ++
      entries.filter (fun entry => !decide (entry.1 = key))
  perm entries := List.filter_append_perm _ entries

theorem beginWith_range {V : Type} {entries : GoMap V} {key : String} {value : V}
    (member : (key, value) ∈ entries.rows) :
    ∃ rest, (beginWith key).range entries = (key, value) :: rest := by
  have listed : (key, value) ∈ entries.rows.filter (fun entry => entry.1 = key) := by
    simpa using member
  simp only [range, beginWith]
  cases front : entries.rows.filter (fun entry => entry.1 = key) with
  | nil =>
    rw [front] at listed
    cases listed
  | cons head tail =>
    have headListed : head ∈ entries.rows.filter (fun entry => entry.1 = key) := by
      rw [front]
      exact .head _
    obtain ⟨headMember, named⟩ := List.mem_filter.mp headListed
    have same : head = (key, value) :=
      entries.eq_of_key_eq headMember member (of_decide_eq_true named)
    exact ⟨_, by rw [same]; rfl⟩

end IterOrder

/-- `apierrors.ReasonForError`: the API status reason an error carries, which
wrapping with `%w` keeps. -/
inductive StatusReason where
  | unknown
  | notFound
  | alreadyExists
  | conflict
deriving DecidableEq, Repr, Inhabited

/-- A Go `error`: its text and the API reason it carries, if any. -/
structure GoError where
  text : String
  reason : StatusReason := .unknown
deriving DecidableEq, Repr, Inhabited

namespace GoError

/-- `fmt.Errorf(context + "%w", err)`. -/
def wrap (context : String) (fault : GoError) : GoError :=
  { fault with text := context ++ fault.text }

/-- `apierrors.IsNotFound`. -/
def isNotFound (fault : GoError) : Bool := fault.reason = .notFound

/-- `apierrors.IsAlreadyExists`. -/
def isAlreadyExists (fault : GoError) : Bool := fault.reason = .alreadyExists

/-- `apierrors.IsConflict`. -/
def isConflict (fault : GoError) : Bool := fault.reason = .conflict

end GoError

/-- A reading of the clock. -/
abbrev Time := Nat

/-! ### Object metadata -/

/-- `types.NamespacedName`. -/
structure NamespacedName where
  ns : String
  name : String
deriving DecidableEq, Repr, Inhabited

/-- `metav1.OwnerReference`. -/
structure OwnerReference where
  apiVersion : String
  kind : String
  name : String
  uid : String
  controller : Option Bool
  blockOwnerDeletion : Option Bool
deriving DecidableEq, Repr, Inhabited

/-- `metav1.ObjectMeta`, without the fields no controller here looks at. -/
structure ObjectMeta where
  name : String
  ns : String
  uid : String := ""
  generation : Nat := 0
  resourceVersion : Nat := 0
  labels : GoMap String := .empty
  annotations : GoMap String := .empty
  ownerReferences : List OwnerReference := []
  finalizers : List String := []
  deletionTimestamp : Option Time := none
deriving DecidableEq, Inhabited

/-- An API object: metadata, the part its author owns, and the status
subresource. -/
structure Resource (Spec Status : Type) where
  metadata : ObjectMeta
  spec : Spec
  status : Status
deriving DecidableEq, Inhabited

/-- `client.ObjectKeyFromObject`. -/
def Resource.key {Spec Status : Type} (object : Resource Spec Status) : NamespacedName :=
  { ns := object.metadata.ns, name := object.metadata.name }

/-- `!obj.DeletionTimestamp.IsZero()`. -/
def Resource.isBeingDeleted {Spec Status : Type} (object : Resource Spec Status) : Bool :=
  object.metadata.deletionTimestamp.isSome

/-- `metav1.ConditionStatus`. -/
inductive ConditionStatus where
  | conditionTrue
  | conditionFalse
  | conditionUnknown
deriving DecidableEq, Repr, Inhabited

/-- `metav1.Condition`. -/
structure Condition where
  type : String
  status : ConditionStatus
  reason : String
  message : String
  lastTransitionTime : Time
deriving DecidableEq, Repr, Inhabited

/-- `runtime.RawExtension` and `apiextv1.JSON`: a JSON document as text. -/
structure RawExtension where
  raw : String
deriving DecidableEq, Repr, Inhabited

/-! ### Workload -/

structure ResourceRequirements where
  limits : GoMap String
  requests : GoMap String
deriving DecidableEq, Inhabited

structure FileSourceSpec where
  uri : String
deriving DecidableEq, Repr, Inhabited

structure FileSpec where
  target : String
  mode : Option String := none
  source : Option FileSourceSpec := none
  content : Option String := none
  binaryContent : Option String := none
deriving DecidableEq, Repr, Inhabited

/-- `ContainerSpec`.  The probes are left out: no modelled function reads them. -/
structure ContainerSpec where
  image : String
  command : List String := []
  args : List String := []
  variables_ : Option (GoMap String) := none
  files : List FileSpec := []
  resources : Option ResourceRequirements := none
deriving DecidableEq, Inhabited

structure ServicePort where
  port : Nat
  protocol : String := ""
  targetPort : Option Nat := none
deriving DecidableEq, Repr, Inhabited

structure ServiceSpec where
  ports : List ServicePort
deriving DecidableEq, Repr, Inhabited

structure ResourceSpec where
  type : String
  class_ : Option String := none
  params : Option RawExtension := none
deriving DecidableEq, Repr, Inhabited

structure WorkloadSpec where
  profile : Option String := none
  containers : GoMap ContainerSpec := .empty
  service : Option ServiceSpec := none
  resources : GoMap ResourceSpec := .empty
deriving DecidableEq, Inhabited

/-- `ResourceClaimPhase`.  `unset` is the empty string; `other` is any text
outside the schema's enumeration. -/
inductive ResourceClaimPhase where
  | unset
  | pending
  | claiming
  | bound
  | failed
  | other (text : String)
deriving DecidableEq, Repr, Inhabited

structure ClaimSummary where
  key : String
  phase : ResourceClaimPhase
  reason : String
  message : String
  outputsAvailable : Bool
deriving DecidableEq, Repr, Inhabited

structure WorkloadStatus where
  endpoint : Option String := none
  conditions : List Condition := []
  claims : List ClaimSummary := []
deriving DecidableEq, Repr, Inhabited

abbrev Workload := Resource WorkloadSpec WorkloadStatus

/-! ### ResourceClaim -/

/-- `DeprovisionPolicy`.  `other` is any text outside the schema's
enumeration. -/
inductive DeprovisionPolicy where
  | delete
  | retain
  | orphan
  | other (text : String)
deriving DecidableEq, Repr, Inhabited

structure ResourceClaimSpec where
  workloadRef : NamespacedName
  key : String
  type : String
  class_ : Option String := none
  id : Option String := none
  params : Option RawExtension := none
  deprovisionPolicy : Option DeprovisionPolicy := none
deriving DecidableEq, Repr, Inhabited

structure LocalObjectReference where
  name : String
deriving DecidableEq, Repr, Inhabited

structure CertificateOutput where
  secretName : Option String := none
  data : GoMap String := .empty
deriving DecidableEq, Inhabited

structure ResourceClaimOutputs where
  secretRef : Option LocalObjectReference := none
  configMapRef : Option LocalObjectReference := none
  uri : Option String := none
  image : Option String := none
  cert : Option CertificateOutput := none
deriving DecidableEq, Inhabited

structure ResourceClaimStatus where
  phase : ResourceClaimPhase := .unset
  reason : String := ""
  message : String := ""
  outputs : Option ResourceClaimOutputs := none
  outputsAvailable : Bool := false
  observedGeneration : Nat := 0
  lastTransitionTime : Option Time := none
deriving DecidableEq, Inhabited

abbrev ResourceClaim := Resource ResourceClaimSpec ResourceClaimStatus

/-! ### WorkloadPlan -/

structure TemplateSpec where
  kind : String
  ref : String
  values : Option RawExtension := none
deriving DecidableEq, Repr, Inhabited

structure PlanClaim where
  key : String
  type : String
  class_ : Option String := none
  params : Option RawExtension := none
deriving DecidableEq, Repr, Inhabited

structure WorkloadPlanSpec where
  workloadRef : NamespacedName
  observedWorkloadGeneration : Nat
  runtimeClass : String
  template : Option TemplateSpec
  resolvedValues : Option RawExtension
  claims : List PlanClaim
deriving DecidableEq, Repr, Inhabited

/-- `WorkloadPlanPhase`.  `unset` is the empty string; the Go type is a plain
string, so any other text is possible. -/
inductive WorkloadPlanPhase where
  | unset
  | pending
  | provisioning
  | ready
  | failed
  | other (text : String)
deriving DecidableEq, Repr, Inhabited

structure WorkloadPlanStatus where
  phase : WorkloadPlanPhase := .unset
  message : String := ""
deriving DecidableEq, Repr, Inhabited

abbrev WorkloadPlan := Resource WorkloadPlanSpec WorkloadPlanStatus

/-! ### WorkloadExposure -/

structure WorkloadExposureWorkloadRef where
  name : String
  ns : Option String
  uid : String
deriving DecidableEq, Repr, Inhabited

structure WorkloadExposureSpec where
  workloadRef : WorkloadExposureWorkloadRef
  observedWorkloadGeneration : Nat
  runtimeClass : String
deriving DecidableEq, Repr, Inhabited

structure ExposureEntry where
  name : String := ""
  url : String
  type : String := ""
  ready : Bool := false
  scope : String := ""
  schemeHint : String := ""
  reachable : Option Bool := none
deriving DecidableEq, Repr, Inhabited

structure WorkloadExposureStatus where
  exposures : List ExposureEntry := []
  conditions : List Condition := []
deriving DecidableEq, Repr, Inhabited

abbrev WorkloadExposure := Resource WorkloadExposureSpec WorkloadExposureStatus

/-! ### Core objects the provisioners and the runtime manage -/

/-- A Secret has no status; its data is kept as text. -/
structure SecretSpec where
  type : String
  data : GoMap String
deriving DecidableEq, Inhabited

abbrev Secret := Resource SecretSpec Unit

structure EnvVar where
  name : String
  value : String
deriving DecidableEq, Repr, Inhabited

/-- `appsv1.StatefulSetSpec` of a single-container pod.  The constant security
context, probes, volumes and resource amounts are left out. -/
structure StatefulSetSpec where
  serviceName : String
  replicas : Option Nat
  selector : GoMap String
  templateLabels : GoMap String
  containerName : String
  image : String
  env : List EnvVar
  containerPort : Nat
deriving DecidableEq, Inhabited

structure StatefulSetStatus where
  readyReplicas : Nat := 0
deriving DecidableEq, Repr, Inhabited

abbrev StatefulSet := Resource StatefulSetSpec StatefulSetStatus

structure CoreServicePort where
  name : String
  port : Nat
  targetPort : Nat
  protocol : String
  nodePort : Nat := 0
deriving DecidableEq, Repr, Inhabited

/-- `corev1.ServiceSpec`. -/
structure CoreServiceSpec where
  type : String
  ports : List CoreServicePort
  selector : GoMap String
  clusterIP : String := ""
deriving DecidableEq, Inhabited

/-- `corev1.LoadBalancerIngress`. -/
structure LoadBalancerIngress where
  ip : String := ""
  hostname : String := ""
deriving DecidableEq, Repr, Inhabited

/-- `corev1.ServiceStatus`: the ingress points of the load balancer. -/
structure CoreServiceStatus where
  ingress : List LoadBalancerIngress := []
deriving DecidableEq, Repr, Inhabited

abbrev Service := Resource CoreServiceSpec CoreServiceStatus

/-- A `resource.Quantity`, by its canonical text. -/
abbrev Quantity := String

/-- `corev1.Container`. -/
structure Container where
  name : String
  image : String
  command : List String := []
  args : List String := []
  env : List EnvVar := []
  requests : GoMap Quantity := .empty
  limits : GoMap Quantity := .empty
deriving DecidableEq, Inhabited

structure DeploymentSpec where
  replicas : Nat
  selector : GoMap String
  templateLabels : GoMap String
  containers : List Container
deriving DecidableEq, Inhabited

structure DeploymentStatus where
  replicas : Nat := 0
  readyReplicas : Nat := 0
deriving DecidableEq, Repr, Inhabited

abbrev Deployment := Resource DeploymentSpec DeploymentStatus

end ScoreOrchestrator
