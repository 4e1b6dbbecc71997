/-
Module: Config.ReconcilerLoader
Purpose: The settings of the Workload reconciler and their loader
  (internal/config/reconciler_config.go and reconciler_loader.go).
Trusted boundary: human-reviewed spec
Main exports: ReconcilerConfig.validate, extractReconcilerConfig, ReconcilerConfigLoader
-/
import Mathlib.Data.Rat.Defs
import ScoreOrchestrator.Config.Loader
import ScoreOrchestrator.Foundation.Json

namespace ScoreOrchestrator.Config

open Foundation

/-! ### Settings -/

/-- `time.Duration`, in nanoseconds. -/
abbrev Duration := Int

/-- `time.Second`. -/
def second : Duration := 1000000000

/-- `time.Minute`. -/
def minute : Duration := 60 * second

/-- `RetryConfig`.  The multiplier is a finite `float64`. -/
structure RetryConfig where
  defaultRequeueDelay : Duration
  conflictRequeueDelay : Duration
  maxRetries : Int
  backoffMultiplier : Rat
deriving DecidableEq

/-- `TimeoutConfig`. -/
structure TimeoutConfig where
  claimTimeout : Duration
  planTimeout : Duration
  statusTimeout : Duration
  deletionTimeout : Duration
deriving DecidableEq

/-- `FeatureConfig`. -/
structure FeatureConfig where
  enableDetailedLogging : Bool
  enableMetrics : Bool
  enableTracing : Bool
  enableExperimentalFeatures : Bool
deriving DecidableEq

/-- `ReconcilerConfig`. -/
structure ReconcilerConfig where
  retry : RetryConfig
  timeouts : TimeoutConfig
  features : FeatureConfig
deriving DecidableEq

/-- `DefaultReconcilerConfig`. -/
def defaultReconcilerConfig : ReconcilerConfig where
  retry :=
    { defaultRequeueDelay := 30 * second
      conflictRequeueDelay := 1 * second
      maxRetries := 3
      backoffMultiplier := 2 }
  timeouts :=
    { claimTimeout := 5 * minute
      planTimeout := 3 * minute
      statusTimeout := 30 * second
      deletionTimeout := 10 * minute }
  features :=
    { enableDetailedLogging := false
      enableMetrics := true
      enableTracing := false
      enableExperimentalFeatures := false }

/-- A duration that is replaced where it is not positive. -/
def positiveOr (fallback duration : Duration) : Duration :=
  if duration ≤ 0 then fallback else duration

/-- `Validate`.  It corrects the settings in place and accepts all of them. -/
def ReconcilerConfig.validate (config : ReconcilerConfig) : Except GoError ReconcilerConfig :=
  .ok { config with
    retry :=
      { defaultRequeueDelay := positiveOr (30 * second) config.retry.defaultRequeueDelay
        conflictRequeueDelay := positiveOr (1 * second) config.retry.conflictRequeueDelay
        maxRetries := if config.retry.maxRetries < 0 then 3 else config.retry.maxRetries
        backoffMultiplier :=
          if config.retry.backoffMultiplier ≤ 1 then 2 else config.retry.backoffMultiplier }
    timeouts :=
      { claimTimeout := positiveOr (5 * minute) config.timeouts.claimTimeout
        planTimeout := positiveOr (3 * minute) config.timeouts.planTimeout
        statusTimeout := positiveOr (30 * second) config.timeouts.statusTimeout
        deletionTimeout := positiveOr (10 * minute) config.timeouts.deletionTimeout } }

/-! ### The section of the orchestrator configuration -/

/-- The YAML package: decoding a section, encoding it again, and decoding the result over
settings that are already there. -/
structure ReconcilerYaml where
  unmarshalSection : String → Except String Json
  marshalSection : Json → Except String String
  unmarshalOver : String → ReconcilerConfig → Except String ReconcilerConfig

/-- `extractReconcilerConfig`.  The loader only ever passes an `OrchestratorConfig`. -/
def extractReconcilerConfig (yaml : ReconcilerYaml) (config : OrchestratorConfig) :
    Except GoError ReconcilerConfig :=
  match config.reconciler with
  | none => .ok defaultReconcilerConfig
  | some reconciler =>
    if reconciler.raw = "" then .ok defaultReconcilerConfig
    else
      match yaml.unmarshalSection reconciler.raw with
      | .error text => .error { text := "failed to unmarshal reconciler raw data: " ++ text }
      | .ok reconcilerSection =>
        match yaml.marshalSection reconcilerSection with
        | .error text => .error { text := "failed to marshal reconciler config: " ++ text }
        | .ok yamlData =>
          match yaml.unmarshalOver yamlData defaultReconcilerConfig with
          | .error text =>
            .error { text := "failed to unmarshal reconciler config: " ++ text }
          | .ok reconcilerConfig => .ok reconcilerConfig

/-- Extraction and validation, with the beginnings of the two errors. -/
def acceptReconcilerConfig (yaml : ReconcilerYaml) (extracting invalid : String)
    (config : OrchestratorConfig) : Except GoError ReconcilerConfig :=
  match extractReconcilerConfig yaml config with
  | .error fault => .error (fault.wrap extracting)
  | .ok reconcilerConfig =>
    match reconcilerConfig.validate with
    | .error fault => .error (fault.wrap invalid)
    | .ok reconcilerConfig => .ok reconcilerConfig

/-! ### The loader -/

/-- `ReconcilerConfigLoader`: its cache, which is a pointer. -/
structure ReconcilerConfigLoader where
  cache : Option ReconcilerConfig
deriving DecidableEq

/-- `NewReconcilerConfigLoader`. -/
def newReconcilerConfigLoader : ReconcilerConfigLoader where
  cache := some defaultReconcilerConfig

/-- `GetCachedConfig`. -/
def ReconcilerConfigLoader.getCachedConfig (loader : ReconcilerConfigLoader) : ReconcilerConfig :=
  loader.cache.getD defaultReconcilerConfig

/-- An error of the orchestrator configuration's loader, and whether it is
`ErrConfigNotFound`. -/
structure LoadFault where
  err : GoError
  isConfigNotFound : Bool

/-- `LoadConfig`, for what the loader of the orchestrator configuration returns.  The
defaults for a missing ConfigMap are not cached. -/
def ReconcilerConfigLoader.loadConfig (yaml : ReconcilerYaml) (loader : ReconcilerConfigLoader) :
    Except LoadFault OrchestratorConfig →
      ReconcilerConfigLoader × Except GoError ReconcilerConfig
  | .error fault =>
    (loader,
      if fault.isConfigNotFound then .ok defaultReconcilerConfig
      else .error (fault.err.wrap "failed to load orchestrator config: "))
  | .ok orchestratorConfig =>
    match acceptReconcilerConfig yaml "failed to extract reconciler config: "
        "invalid reconciler config: " orchestratorConfig with
    | .error fault => (loader, .error fault)
    | .ok reconcilerConfig => ({ cache := some reconcilerConfig }, .ok reconcilerConfig)

/-- The loop of `Watch`, for one event: the loader, and what the callback is told.  An event
without a configuration that needs one is a nil dereference. -/
def ReconcilerConfigLoader.handleEvent (yaml : ReconcilerYaml) (loader : ReconcilerConfigLoader)
    (event : ConfigEvent) :
    Option (ReconcilerConfigLoader × Option ReconcilerConfig × Option GoError) :=
  match event.type with
  | .error => some (loader, none, event.error)
  | .deleted => some ({ cache := some defaultReconcilerConfig }, some defaultReconcilerConfig, none)
  | .added | .modified =>
    event.config.map fun config =>
      match acceptReconcilerConfig yaml "failed to extract reconciler config from updated config: "
          "invalid updated reconciler config: " config with
      | .error fault => (loader, none, some fault)
      | .ok reconcilerConfig => ({ cache := some reconcilerConfig }, some reconcilerConfig, none)

end ScoreOrchestrator.Config
