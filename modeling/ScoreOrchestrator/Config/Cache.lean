/-
Module: Config.Cache
Purpose: The cache of the configuration loader and its hand-written copies
  (internal/config/cache.go).
Trusted boundary: human-reviewed spec
Main exports: ConfigCache, deepCopyConfig, deepCopyConfig_eq
-/
import ScoreOrchestrator.Config.Types

namespace ScoreOrchestrator.Config

open Foundation

/-! ### Copies

`RawExtension.DeepCopy` is generated and copies the bytes, so what it returns is the
value itself. -/

/-- The loop that copies a map, entry by entry; the order of the entries cannot be
seen. -/
def copyLabels (original : GoMap String) : GoMap String :=
  original.rows.foldl (fun copy entry => copy.set entry.1 entry.2) .empty

/-- A requirement, whose values are appended to nothing. -/
def copyRequirement (expr : LabelSelectorRequirement) : LabelSelectorRequirement where
  key := expr.key
  operator := expr.operator
  values := [] ++ expr.values

mutual

/-- `deepCopySelector`. -/
def deepCopySelector : SelectorSpec → SelectorSpec
  | { matchLabels, matchExpressions, profile, constraints } =>
    { profile
      matchLabels := copyLabels matchLabels
      matchExpressions := matchExpressions.map copyRequirement
      constraints := copyGivenConstraints constraints }

/-- `deepCopyConstraints`. -/
def deepCopyConstraints : ConstraintsSpec → ConstraintsSpec
  | { selectors, features, regions, resources } =>
    { selectors := deepCopySelectors selectors
      features
      regions
      resources := resources.map fun resources =>
        { cpu := resources.cpu, memory := resources.memory, storage := resources.storage } }

/-- The loop over selectors. -/
def deepCopySelectors : List SelectorSpec → List SelectorSpec
  | [] => []
  | selector :: rest => deepCopySelector selector :: deepCopySelectors rest

/-- Constraints behind a pointer that may be nil. -/
def copyGivenConstraints : Option ConstraintsSpec → Option ConstraintsSpec
  | none => none
  | some constraints => some (deepCopyConstraints constraints)

end

/-- `deepCopyTemplate`. -/
def deepCopyTemplate (original : TemplateSpec) : TemplateSpec where
  kind := original.kind
  ref := original.ref
  values := original.values

/-- `deepCopyBackend`. -/
def deepCopyBackend (original : BackendSpec) : BackendSpec where
  backendId := original.backendId
  runtimeClass := original.runtimeClass
  template := deepCopyTemplate original.template
  priority := original.priority
  version := original.version
  constraints := copyGivenConstraints original.constraints

/-- `deepCopyProfile`. -/
def deepCopyProfile (original : ProfileSpec) : ProfileSpec where
  name := original.name
  description := original.description
  backends := original.backends.map deepCopyBackend

/-- `deepCopyClass`. -/
def deepCopyClass (original : ClassSpec) : ClassSpec where
  name := original.name
  description := original.description
  parameters := original.parameters
  constraints := copyGivenConstraints original.constraints

/-- `deepCopyProvisioner`. -/
def deepCopyProvisioner (original : ProvisionerSpec) : ProvisionerSpec where
  type := original.type
  provisioner := original.provisioner
  classes := original.classes.map deepCopyClass
  defaults := original.defaults.map fun defaults =>
    { class_ := defaults.class_, params := defaults.params }

/-- `deepCopyDefaults`. -/
def deepCopyDefaults (original : DefaultsSpec) : DefaultsSpec where
  profile := original.profile
  selectors := deepCopySelectors original.selectors

/-- `deepCopyConfig`.  The reconciler section is not among the fields it sets. -/
def deepCopyConfig (original : OrchestratorConfig) : OrchestratorConfig where
  apiVersion := original.apiVersion
  kind := original.kind
  metadata := original.metadata
  spec :=
    { defaults := deepCopyDefaults original.spec.defaults
      profiles := original.spec.profiles.map deepCopyProfile
      provisioners := original.spec.provisioners.map deepCopyProvisioner }

/-! ### The cache -/

/-- `configCache`.  Times and the TTL are in nanoseconds. -/
structure ConfigCache where
  config : Option OrchestratorConfig := none
  cachedAt : Time := 0
  ttl : Int

/-- `get`, at a time. -/
def ConfigCache.get (cache : ConfigCache) (now : Time) : Option OrchestratorConfig :=
  match cache.config with
  | none => none
  | some config =>
    if (now : Int) - cache.cachedAt > cache.ttl then none
    else some (deepCopyConfig config)

/-- `set`, at a time. -/
def ConfigCache.set (cache : ConfigCache) (now : Time) (config : OrchestratorConfig) :
    ConfigCache :=
  { cache with config := some (deepCopyConfig config), cachedAt := now }

/-- `invalidate`. -/
def ConfigCache.invalidate (cache : ConfigCache) : ConfigCache :=
  { cache with config := none, cachedAt := 0 }

/-! ### What a copy is -/

theorem copyLabels_eq (original : GoMap String) : copyLabels original = original :=
  Table.ofRows_rows original

theorem map_copyRequirement (exprs : List LabelSelectorRequirement) :
    exprs.map copyRequirement = exprs :=
  List.map_id'' (fun _ => rfl) exprs

mutual

theorem deepCopySelector_eq : ∀ original, deepCopySelector original = original
  | { matchLabels, matchExpressions, profile, constraints } => by
      rw [deepCopySelector, copyLabels_eq, map_copyRequirement, copyGivenConstraints_eq]

theorem deepCopyConstraints_eq : ∀ original, deepCopyConstraints original = original
  | { selectors, features, regions, resources } => by
      rw [deepCopyConstraints, deepCopySelectors_eq]
      simp

theorem deepCopySelectors_eq : ∀ original, deepCopySelectors original = original
  | [] => rfl
  | selector :: rest => by
      rw [deepCopySelectors, deepCopySelector_eq, deepCopySelectors_eq]

theorem copyGivenConstraints_eq : ∀ original, copyGivenConstraints original = original
  | none => rfl
  | some constraints => by
      rw [copyGivenConstraints, deepCopyConstraints_eq]

end

theorem deepCopyProfile_eq (original : ProfileSpec) : deepCopyProfile original = original := by
  have backends : original.backends.map deepCopyBackend = original.backends := by
    refine List.map_id'' (fun backend => ?_) _
    simp only [deepCopyBackend, deepCopyTemplate, copyGivenConstraints_eq]
  rw [deepCopyProfile, backends]

theorem deepCopyProvisioner_eq (original : ProvisionerSpec) :
    deepCopyProvisioner original = original := by
  have classes : original.classes.map deepCopyClass = original.classes := by
    refine List.map_id'' (fun class_ => ?_) _
    simp only [deepCopyClass, copyGivenConstraints_eq]
  rw [deepCopyProvisioner, classes]
  simp

/-- The copy has everything but the reconciler section. -/
theorem deepCopyConfig_eq (original : OrchestratorConfig) :
    deepCopyConfig original = { original with reconciler := none } := by
  have profiles : original.spec.profiles.map deepCopyProfile = original.spec.profiles :=
    List.map_id'' deepCopyProfile_eq _
  have provisioners : original.spec.provisioners.map deepCopyProvisioner =
      original.spec.provisioners :=
    List.map_id'' deepCopyProvisioner_eq _
  rw [deepCopyConfig, deepCopyDefaults, profiles, provisioners, deepCopySelectors_eq]

theorem deepCopyConfig_eq_self_iff {original : OrchestratorConfig} :
    deepCopyConfig original = original ↔ original.reconciler = none := by
  rw [deepCopyConfig_eq]
  constructor
  · intro same
    rw [← same]
  · intro none
    rw [← none]

end ScoreOrchestrator.Config
