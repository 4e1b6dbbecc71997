/-
Module: Config.Loader
Purpose: The loader of the orchestrator configuration: loading it through the cache and
  handling the events of its ConfigMap (internal/config/configmap.go and loader.go).
Trusted boundary: human-reviewed spec
Main exports: ConfigMapLoader, loaderService, loadConfig, handleConfigMapEvent, Delivery
-/
import ScoreOrchestrator.Config.Cache
import ScoreOrchestrator.Config.Validation
import ScoreOrchestrator.Foundation.Program

namespace ScoreOrchestrator.Config

open Foundation

/-! ### Loaders -/

/-- `LoaderOptions`. -/
structure LoaderOptions where
  ns : String := "score-system"
  configMapName : String := "orchestrator-config"
  configMapKey : String := "config.yaml"
  enableCache : Bool := true
  cacheTTL : String := "5m"
deriving DecidableEq, Repr

/-- The defaults that `NewConfigMapLoader` puts for empty options. -/
def LoaderOptions.filled (options : LoaderOptions) : LoaderOptions :=
  { options with
    ns := if options.ns = "" then "score-system" else options.ns
    configMapName :=
      if options.configMapName = "" then "orchestrator-config" else options.configMapName
    configMapKey :=
      if options.configMapKey = "" then "config.yaml" else options.configMapKey }

/-- `ConfigMapLoader`, with what it takes from other packages: the YAML parser, the
text of the validator's errors, and `time.ParseDuration`.  The watchers are a model of
their own. -/
structure ConfigMapLoader where
  options : LoaderOptions
  validator : Validator
  unmarshal : String → Except String OrchestratorConfig
  describe : List FieldError → String
  parseDuration : String → Option Int

/-- The TTL of a new loader: five minutes if the option cannot be parsed. -/
def ConfigMapLoader.ttl (loader : ConfigMapLoader) : Int :=
  (loader.parseDuration loader.options.cacheTTL).getD (5 * 60 * 1000000000)

/-- `parseConfig`. -/
def ConfigMapLoader.parseConfig (loader : ConfigMapLoader) (yamlContent : String) :
    Except String OrchestratorConfig :=
  match loader.unmarshal yamlContent with
  | .ok config => .ok config
  | .error fault => .error ("failed to unmarshal YAML: " ++ fault)

/-- Why the data of a ConfigMap gives no configuration. -/
inductive DataFault where
  | missing
  | malformed (text : String)
  | invalid (text : String)
deriving DecidableEq, Repr

/-- The steps from the data of a ConfigMap to a configuration, which `LoadConfig` and
`handleConfigMapEvent` both take: the key, the parser and the validator. -/
def ConfigMapLoader.accept (loader : ConfigMapLoader) (data : GoMap String) :
    Except DataFault OrchestratorConfig :=
  match data.get? loader.options.configMapKey with
  | none => .error .missing
  | some yamlContent =>
    match loader.parseConfig yamlContent with
    | .error text => .error (.malformed text)
    | .ok config =>
      match validate loader.validator config with
      | .error errs => .error (.invalid (loader.describe errs))
      | .ok () => .ok config

/-! ### Calls -/

/-- `ConfigEventType`. -/
inductive ConfigEventType where
  | added
  | modified
  | deleted
  | error
deriving DecidableEq, Repr

/-- `ConfigEvent`. -/
structure ConfigEvent where
  type : ConfigEventType
  config : Option OrchestratorConfig := none
  error : Option GoError := none

/-- What loading and event handling do to the outside: the methods of the cache, each
under its lock, the read of the ConfigMap, the broadcast, and handing the result of a
load to its caller. -/
inductive LoaderCall : Type → Type where
  | cacheGet : LoaderCall (Option OrchestratorConfig)
  | cacheSet (config : OrchestratorConfig) : LoaderCall Unit
  | cacheInvalidate : LoaderCall Unit
  | getConfigMap (ns name : String) : LoaderCall (GoMap String)
  | broadcastEvent (event : ConfigEvent) : LoaderCall Unit
  | deliver (result : Except GoError OrchestratorConfig) : LoaderCall Unit

abbrev LoaderProgram := Program LoaderCall GoError

/-- The cache and the clock. -/
structure LoaderState where
  cache : ConfigCache
  now : Time

/-- The cache does what it is told, and reading the ConfigMap may give any data or
fail. -/
def loaderService : Foundation.Service LoaderCall GoError LoaderState
  | _, .cacheGet, before, reply, after => reply = .ok (before.cache.get before.now) ∧ after = before
  | _, .cacheSet config, before, reply, after =>
    reply = .ok () ∧
      after = { before with cache := before.cache.set before.now config }
  | _, .cacheInvalidate, before, reply, after =>
    reply = .ok () ∧ after = { before with cache := before.cache.invalidate }
  | _, .getConfigMap _ _, before, _, after => after = before
  | _, .broadcastEvent _, before, reply, after => reply = .ok () ∧ after = before
  | _, .deliver _, before, reply, after => reply = .ok () ∧ after = before

/-- The clock goes on. -/
def TimePasses (before after : LoaderState) : Prop :=
  before.now ≤ after.now ∧ after.cache = before.cache

/-! ### Loading -/

/-- The cached configuration, if caching is enabled. -/
def loadCached (loader : ConfigMapLoader) : LoaderProgram (Option OrchestratorConfig) :=
  if loader.options.enableCache then
    (Program.request .cacheGet).bind fun
      | .ok cached => .done cached
      | .error _ => .done none
  else .done none

/-- Store a configuration, if caching is enabled. -/
def storeCached (loader : ConfigMapLoader) (config : OrchestratorConfig) : LoaderProgram Unit :=
  if loader.options.enableCache then (Program.request (.cacheSet config)).discard
  else .done ()

/-- The error that `LoadConfig` returns for unusable data. -/
def loadFault (options : LoaderOptions) : DataFault → GoError
  | .missing =>
    { text := "orchestrator configuration is malformed: key " ++ options.configMapKey ++
      " not found in ConfigMap " ++ options.ns ++ "/" ++ options.configMapName }
  | .malformed text => { text := "orchestrator configuration is malformed: " ++ text }
  | .invalid text => { text := "orchestrator configuration is invalid: " ++ text }

/-- The error that `LoadConfig` returns for a failed read. -/
def readFault (options : LoaderOptions) (err : GoError) : GoError :=
  if err.isNotFound then
    { text := "orchestrator configuration not found: ConfigMap " ++ options.ns ++ "/" ++
        options.configMapName ++ " not found" }
  else
    err.wrap ("failed to get ConfigMap " ++ options.ns ++ "/" ++ options.configMapName ++ ": ")

/-- `LoadConfig` from the ConfigMap on. -/
def loadUncached (loader : ConfigMapLoader) :
    LoaderProgram (Except GoError OrchestratorConfig) := do
  match ← Program.request (.getConfigMap loader.options.ns loader.options.configMapName) with
  | .error err => pure (.error (readFault loader.options err))
  | .ok data =>
    match loader.accept data with
    | .error fault => pure (.error (loadFault loader.options fault))
    | .ok config => do
        storeCached loader config
        pure (.ok config)

/-- `LoadConfig`. -/
def loadConfig (loader : ConfigMapLoader) : LoaderProgram (Except GoError OrchestratorConfig) := do
  match ← loadCached loader with
  | some config => pure (.ok config)
  | none => loadUncached loader

/-! ### Events -/

/-- What an informer hands to its handlers: a ConfigMap, or something of another
type. -/
inductive WatchedObject where
  | configMap (data : GoMap String)
  | other (typeName : String)
deriving DecidableEq

/-- The error that `handleConfigMapEvent` broadcasts for unusable data. -/
def eventFault (options : LoaderOptions) : DataFault → GoError
  | .missing => { text := "key " ++ options.configMapKey ++ " not found in ConfigMap" }
  | .malformed text => { text := "failed to parse configuration: " ++ text }
  | .invalid text => { text := "configuration validation failed: " ++ text }

/-- `broadcastEvent`, as the handler sees it. -/
def broadcast (event : ConfigEvent) : LoaderProgram Unit :=
  (Program.request (.broadcastEvent event)).discard

/-- `handleConfigMapEvent`. -/
def handleConfigMapEvent (loader : ConfigMapLoader) (eventType : ConfigEventType) :
    WatchedObject → LoaderProgram Unit
  | .other typeName =>
    broadcast { type := .error
                error := some { text := "unexpected object type: " ++ typeName } }
  | .configMap data =>
    if eventType ≠ .deleted then
      match loader.accept data with
      | .error fault =>
        broadcast { type := .error, error := some (eventFault loader.options fault) }
      | .ok config => do
          storeCached loader config
          broadcast { type := eventType, config := some config }
    else do
      if loader.options.enableCache then
        (Program.request .cacheInvalidate).discard
      broadcast { type := eventType }

/-! ### The informer -/

/-- What the informer delivers.  A deletion that it has not seen itself is delivered as a
`cache.DeletedFinalStateUnknown` in place of the ConfigMap. -/
inductive Delivery where
  | added (data : GoMap String)
  | updated (data : GoMap String)
  | deleted (data : GoMap String)
  | tombstone
deriving DecidableEq

def Delivery.isDeletion : Delivery → Bool
  | .added _ => false
  | .updated _ => false
  | .deleted _ => true
  | .tombstone => true

/-- The handlers that `startInformer` registers. -/
def Delivery.handler (loader : ConfigMapLoader) : Delivery → LoaderProgram Unit
  | .added data => handleConfigMapEvent loader .added (.configMap data)
  | .updated data => handleConfigMapEvent loader .modified (.configMap data)
  | .deleted data => handleConfigMapEvent loader .deleted (.configMap data)
  | .tombstone => handleConfigMapEvent loader .deleted (.other "cache.DeletedFinalStateUnknown")

end ScoreOrchestrator.Config
