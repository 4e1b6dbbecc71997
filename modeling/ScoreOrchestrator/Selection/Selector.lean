/-
Module: Selection.Selector
Purpose: The choice of a profile and a backend for a Workload
  (internal/selection/selector.go).
Trusted boundary: human-reviewed spec
Main exports: selectProfile, filterBackends, precedes, selectBackend
-/
import Mathlib.Algebra.Group.Int.Defs
import Mathlib.Algebra.Group.Nat.Defs
import ScoreOrchestrator.Config.Types
import ScoreOrchestrator.Foundation.Comparison
import ScoreOrchestrator.Reconcile.Plan

namespace ScoreOrchestrator.Selection

open Foundation
open Config

/-! ### Libraries -/

/-- Masterminds/semver: versions that parse, and their precedence. -/
structure Semver where
  Version : Type
  newVersion : String → Option Version
  compare : Version → Version → Ordering
  trans : Std.TransCmp compare

/-- What the selector takes from other packages: versions, `sort.Slice`, the Unicode
operations of strings, and the checks of label keys and values. -/
structure Libraries where
  semver : Semver
  slice : SliceSort
  toLower : String → String
  toUpper : String → String
  trimSpace : String → String
  isQualifiedName : String → Bool
  isValidLabelValue : String → Bool

/-- `strings.Split` by one character. -/
def splitText (separator : Char) (text : String) : List String :=
  (text.toList.splitOn separator).map String.ofList

/-! ### Label selectors -/

/-- `labels.Requirement`. -/
structure Requirement where
  key : String
  operator : LabelSelectorOperator
  values : List String

/-- `labels.NewRequirement`. -/
def newRequirement (libraries : Libraries) (key : String) (operator : LabelSelectorOperator)
    (values : List String) : Option Requirement :=
  let counted :=
    match operator with
    | .in_ | .notIn => !values.isEmpty
    | .exists_ | .doesNotExist => values.isEmpty
    | .other _ => false
  if libraries.isQualifiedName key && counted && values.all libraries.isValidLabelValue then
    some { key, operator, values }
  else none

/-- `Requirement.Matches`. -/
def Requirement.isMet (requirement : Requirement) (labels : GoMap String) : Bool :=
  match requirement.operator, labels.get? requirement.key with
  | .in_, some value => requirement.values.contains value
  | .in_, none => false
  | .notIn, some value => !requirement.values.contains value
  | .notIn, none => true
  | .exists_, held => held.isSome
  | .doesNotExist, held => held.isNone
  | .other _, _ => false

/-- `metav1.LabelSelectorAsSelector`; `none` is an error.  A match label asks for
equality, which is to be in a list of one.  The order of the map cannot be seen. -/
def labelSelectorAsSelector (libraries : Libraries) (selector : SelectorSpec) :
    Option (List Requirement) := do
  let labels ← selector.matchLabels.rows.mapM fun (key, value) =>
    newRequirement libraries key .in_ [value]
  let expressions ← selector.matchExpressions.mapM fun expression =>
    newRequirement libraries expression.key expression.operator expression.values
  some (labels ++ expressions)

/-- `selectorMatches`. -/
def selectorMatches (libraries : Libraries) (selector : SelectorSpec)
    (targetLabels : GoMap String) : Bool :=
  match labelSelectorAsSelector libraries selector with
  | none => false
  | some requirements => requirements.all fun requirement => requirement.isMet targetLabels

/-! ### Profiles -/

/-- The words of which the name of a fitting profile contains one. -/
def profileWords (workload : Workload) : List String :=
  if workload.spec.service.any fun service => !service.ports.isEmpty then
    ["web", "service"]
  else ["batch", "job"]

/-- `deriveProfileFromWorkload`; the empty name stands for none. -/
def deriveProfileFromWorkload (libraries : Libraries) (config : OrchestratorConfig)
    (workload : Workload) : String :=
  ((config.spec.profiles.find? fun profile =>
    (profileWords workload).any fun word =>
      contains (libraries.toLower profile.name) word).map
        fun profile => profile.name).getD ""

/-- `selectProfileFromSelectors`. -/
def selectProfileFromSelectors (libraries : Libraries) (config : OrchestratorConfig)
    (workload : Workload) : String :=
  ((config.spec.defaults.selectors.find? fun selector =>
    selectorMatches libraries selector workload.metadata.labels &&
      selector.profile ≠ "").map fun selector => selector.profile).getD ""

/-- `selectProfile` for a Workload without a hint. -/
def selectProfileUnhinted (libraries : Libraries) (config : OrchestratorConfig)
    (workload : Workload) : Except GoError String :=
  let derivedProfile := deriveProfileFromWorkload libraries config workload
  if derivedProfile ≠ "" then .ok derivedProfile
  else
    let selectedProfile := selectProfileFromSelectors libraries config workload
    if selectedProfile ≠ "" then .ok selectedProfile
    else if config.spec.defaults.profile ≠ "" then .ok config.spec.defaults.profile
    else
      .error { text := "no profile could be determined and no default profile is configured" }

/-- The hint of a Workload, if there is one that says anything. -/
def profileHint (workload : Workload) : Option String :=
  (workload.metadata.annotations.get? "score.dev/profile").filter fun hint => hint ≠ ""

/-- `selectProfile`. -/
def selectProfile (libraries : Libraries) (config : OrchestratorConfig) (workload : Workload) :
    Except GoError String :=
  match profileHint workload with
  | some hint =>
    if config.spec.profiles.any fun profile => profile.name = hint then .ok hint
    else .error { text := "hinted profile \"" ++ hint ++ "\" does not exist" }
  | none => selectProfileUnhinted libraries config workload

/-! ### Features -/

/-- `detectIngressFeatures`. -/
def detectIngressFeatures (workload : Workload) : List String :=
  match workload.spec.service with
  | none => []
  | some service => service.ports.flatMap fun port =>
    (if port.port ∈ [80, 8080, 3000, 8000] then ["http-ingress"] else []) ++
      (if port.port ∈ [443, 8443] then ["https-ingress", "http-ingress"] else []) ++
      ["http-ingress"]

/-- `detectMonitoringFeatures`. -/
def detectMonitoringFeatures (libraries : Libraries) (workload : Workload) : List String :=
  let byPort := workload.spec.service.any fun service =>
    service.ports.any fun port => port.port ∈ [9090, 9100, 3000]
  let byVariable := workload.spec.containers.rows.any fun (_, container) =>
    container.variables_.any fun variables_ =>
      variables_.keys.any fun varName =>
        ["METRICS", "MONITORING", "PROMETHEUS"].any fun word =>
          contains (libraries.toUpper varName) word
  if byPort || byVariable then ["monitoring"] else []

/-- `detectScaleFeatures`. -/
def detectScaleFeatures (workload : Workload) : List String :=
  if workload.metadata.annotations.get? "score.dev/scale-to-zero" = some "true" then
    ["scale-to-zero"]
  else []

/-- `detectStorageFeatures`. -/
def detectStorageFeatures (workload : Workload) : List String :=
  if workload.spec.containers.rows.any fun (_, container) => !container.files.isEmpty then
    ["persistent-storage"]
  else []

/-- `detectDatabaseFeatures`. -/
def detectDatabaseFeatures (libraries : Libraries) (workload : Workload) : List String :=
  let usesDatabase := workload.spec.resources.rows.any fun (_, resource) =>
    ["postgres", "mysql", "database", "redis"].any fun word =>
      contains (libraries.toLower resource.type) word
  if usesDatabase then ["database-connectivity"] else []

/-- `getWorkloadFeatures`, as the list of the keys that are set. -/
def getWorkloadFeatures (libraries : Libraries) (workload : Workload) : List String :=
  let explicit :=
    match workload.metadata.annotations.get? "score.dev/requirements" with
    | none => []
    | some requirements => (splitText ',' requirements).map libraries.trimSpace
  explicit ++ detectIngressFeatures workload ++
    detectMonitoringFeatures libraries workload ++ detectScaleFeatures workload ++
    detectStorageFeatures workload ++ detectDatabaseFeatures libraries workload

/-- `validateFeatureRequirements`. -/
def validateFeatureRequirements (libraries : Libraries) (workload : Workload)
    (requiredFeatures : List String) : Bool :=
  requiredFeatures.all fun required =>
    (getWorkloadFeatures libraries workload).contains required

/-! ### Quantities -/

/-- A sum or product in `int64`. -/
def wrapInt64 (value : Int) : Int := value.bmod (2 ^ 64)

/-- The number that decimal digits spell. -/
def digitsValue (digits : List Char) : Nat :=
  digits.foldl (fun value digit => value * 10 + (digit.toNat - '0'.toNat)) 0

/-- `strconv.ParseInt(text, 10, 64)`; `none` is an error. -/
def parseInt (text : List Char) : Option Int :=
  let (negative, digits) :=
    match text with
    | '-' :: rest => (true, rest)
    | '+' :: rest => (false, rest)
    | _ => (false, text)
  if !digits.isEmpty && digits.all fun digit => digit.isDigit then
    let value : Int :=
      if negative then -(digitsValue digits : Int) else (digitsValue digits : Int)
    if -(2 ^ 63) ≤ value ∧ value < 2 ^ 63 then some value else none
  else none

/-- Cut a suffix off. -/
def stripSuffix (suffix text : List Char) : Option (List Char) :=
  if suffix.isSuffixOf text then some (text.take (text.length - suffix.length)) else none

/-- `parseQuantity`. -/
def parseQuantity (quantity : String) : Option Int :=
  let text := quantity.toList
  if text.isEmpty then some 0
  else
    match stripSuffix ['m'] text, stripSuffix ['M', 'i'] text, stripSuffix ['G', 'i'] text with
    | some value, _, _ => parseInt value
    | none, some value, _ => (parseInt value).map fun val => wrapInt64 (val * 1024 * 1024)
    | none, none, some value => (parseInt value).map fun val => wrapInt64 (val * 1024 * 1024 * 1024)
    | none, none, none => parseInt text

/-- What a container asks for of one resource, if that can be read. -/
def requestOf (resource : String) (container : ContainerSpec) : Option Int :=
  (container.resources.bind fun resources => resources.requests.get? resource).bind
    parseQuantity

/-- The sum over the containers of one resource. -/
def totalRequests (order : IterOrder) (workload : Workload) (resource : String) : Int :=
  (order.range workload.spec.containers).foldl
    (fun total (_, container) =>
      match requestOf resource container with
      | some quantity => wrapInt64 (total + quantity)
      | none => total) 0

/-- `calculateWorkloadResources`: the totals as texts. -/
def calculateWorkloadResources (order : IterOrder) (workload : Workload) :
    String × String × String :=
  (toString (totalRequests order workload "cpu") ++ "m",
    toString (totalRequests order workload "memory"),
    toString (totalRequests order workload "ephemeral-storage"))

/-- One bound of a range: nothing is asked for if it is empty, and one that cannot be
read is not kept. -/
def boundKept (bound : String) (kept : Int → Bool) : Bool :=
  bound = "" || (parseQuantity bound).any kept

/-- `validateQuantityConstraint`. -/
def validateQuantityConstraint (actual constraint : String) : Bool :=
  constraint = "" ||
    match splitText '-' constraint with
    | [_] => actual = constraint
    | [minStr, maxStr] =>
      (parseQuantity actual).any fun actualQty =>
        boundKept minStr (fun minQty => minQty ≤ actualQty) &&
          boundKept maxStr fun maxQty => actualQty ≤ maxQty
    | _ => false

/-- `validateResourceConstraints`. -/
def validateResourceConstraints (order : IterOrder) (workload : Workload)
    (constraints : ResourceConstraints) : Bool :=
  let (totalCPU, totalMemory, totalStorage) := calculateWorkloadResources order workload
  validateQuantityConstraint totalCPU constraints.cpu &&
    validateQuantityConstraint totalMemory constraints.memory &&
    validateQuantityConstraint totalStorage constraints.storage

/-! ### Backends -/

/-- `backendSelectorsMatch`. -/
def backendSelectorsMatch (libraries : Libraries) (selectors : List SelectorSpec)
    (targetLabels : GoMap String) : Bool :=
  selectors.isEmpty ||
    selectors.any fun selector => selectorMatches libraries selector targetLabels

/-- The filters that a backend has to pass. -/
def passesFilters (libraries : Libraries) (order : IterOrder) (workload : Workload)
    (backend : BackendSpec) : Bool :=
  match backend.constraints with
  | none => true
  | some constraints =>
    backendSelectorsMatch libraries constraints.selectors workload.metadata.labels &&
      validateFeatureRequirements libraries workload constraints.features &&
      constraints.resources.all (validateResourceConstraints order workload)

/-- `filterBackends`. -/
def filterBackends (libraries : Libraries) (order : IterOrder) (workload : Workload)
    (backends : List BackendSpec) : List BackendSpec :=
  backends.filter (passesFilters libraries order workload)

/-- The comparison that `selectBackend` sorts by: priority, then version, where a valid
one comes before any other, then ID. -/
def precedes (libraries : Libraries) (a b : BackendSpec) : Bool :=
  if a.priority ≠ b.priority then a.priority > b.priority
  else
    match libraries.semver.newVersion a.version, libraries.semver.newVersion b.version with
    | some versionA, some versionB =>
      match libraries.semver.compare versionA versionB with
      | .gt => true
      | .lt => false
      | .eq => a.backendId < b.backendId
    | some _, none => true
    | none, some _ => false
    | none, none => a.backendId < b.backendId

/-- `selectBackend`: the first candidate after sorting; `none` is the panic on an empty
slice. -/
def selectAmong (libraries : Libraries) (candidates : List BackendSpec) : Option BackendSpec :=
  libraries.slice.best (precedes libraries) candidates

/-- `SelectedBackend`. -/
structure SelectedBackend extends Reconcile.SelectedBackend where
  backendID : String
  priority : Int
  version : String
deriving DecidableEq, Repr

/-- The part of a backend that is reported. -/
def SelectedBackend.ofSpec (backend : BackendSpec) : SelectedBackend where
  backendID := backend.backendId
  runtimeClass := backend.runtimeClass
  template := backend.template
  priority := backend.priority
  version := backend.version

/-- `SelectBackend`. -/
def selectBackend (libraries : Libraries) (order : IterOrder) (config : OrchestratorConfig)
    (workload : Workload) : Except GoError SelectedBackend :=
  match selectProfile libraries config workload with
  | .error fault => .error (fault.wrap "profile selection failed: ")
  | .ok profileName =>
    match config.spec.profiles.find? fun profile => profile.name = profileName with
    | none =>
      .error { text := "profile \"" ++ profileName ++
        "\" not found in configuration" }
    | some selectedProfile =>
      let candidates := filterBackends libraries order workload selectedProfile.backends
      if candidates.isEmpty then
        .error { text := "no suitable backend candidates found for profile \"" ++
          profileName ++ "\"" }
      else
        match selectAmong libraries candidates with
        | some selectedBackend => .ok (.ofSpec selectedBackend)
        -- the panic, which the check before it rules out
        | none => .error { text := "index out of range [0] with length 0" }

end ScoreOrchestrator.Selection
