/-
Module: Proofs.ServedConfig
Purpose: What the configuration loader serves: that a cached configuration is the loaded
  one without its reconciler section, and that only validated ones are served, whatever
  the interleaving of loads, events and the clock.
-/
import ScoreOrchestrator.Config.Loader
import ScoreOrchestrator.Foundation.Concurrency
import ScoreOrchestrator.Proofs.BackendSelection

namespace ScoreOrchestrator.Config

open Foundation Program

variable {loader : ConfigMapLoader} {config : OrchestratorConfig} {state : LoaderState}
  {data : GoMap String} {worker : Nat}

/-! ### Cached and loaded -/

theorem ConfigCache.get_set {cache : ConfigCache} {at_ now : Time}
    (within : (now : Int) - at_ ≤ cache.ttl) :
    (cache.set at_ config).get now = some { config with reconciler := none } := by
  have fresh : ¬(now : Int) - at_ > cache.ttl := by omega
  rw [ConfigCache.set, ConfigCache.get]
  dsimp only
  rw [if_neg fresh, deepCopyConfig_eq, deepCopyConfig_eq]

section

variable (enabled : loader.options.enableCache = true)
include enabled

/-- A load that the cache cannot answer stores what it returns. -/
theorem cache_of_loadUncached {after : LoaderState}
    {events : List (Event LoaderCall GoError LoaderState)}
    (run : (loadUncached loader).Runs loaderService state events (.returned (.ok config)) after) :
    after.cache = state.cache.set state.now config := by
  obtain ⟨reply, _, _, rfl, served, rest⟩ := run.of_call
  have unchanged : _ = state := served
  subst unchanged
  cases reply with
  | error err => cases rest
  | ok data =>
    simp only [done_bind] at rest
    cases accepted : loader.accept data with
    | error fault =>
      simp only [accepted] at rest
      cases rest
    | ok loaded =>
      simp only [accepted, storeCached, enabled, if_true] at rest
      cases rest with
      | call stored rest =>
        cases rest
        exact congrArg LoaderState.cache stored.2

/-- What is served from the cache within the TTL is what was loaded just if that has no
reconciler section. -/
theorem cached_config_iff {state after final : LoaderState}
    {events later : List (Event LoaderCall GoError LoaderState)} {config : OrchestratorConfig}
    {result : Except GoError OrchestratorConfig} {now : Time}
    (miss : state.cache.get state.now = none)
    (first : (loadConfig loader).Runs loaderService state events (.returned (.ok config)) after)
    (within : (now : Int) - after.cache.cachedAt ≤ after.cache.ttl)
    (second : (loadConfig loader).Runs loaderService { after with now } later
      (.returned result) final) :
    ∃ served, result = .ok served ∧ (served = config ↔ config.reconciler = none) := by
  have cached : after.cache = state.cache.set state.now config := by
    simp only [loadConfig, loadCached, enabled, if_true] at first
    obtain ⟨_, _, _, rfl, served, rest⟩ := first.of_call
    obtain ⟨rfl, rfl⟩ := served
    rw [miss] at rest
    exact cache_of_loadUncached enabled rest
  have hit : after.cache.get now = some { config with reconciler := none } := by
    rw [cached] at within ⊢
    exact ConfigCache.get_set within
  simp only [loadConfig, loadCached, enabled, if_true] at second
  obtain ⟨_, _, _, rfl, served, rest⟩ := second.of_call
  obtain ⟨rfl, rfl⟩ := served
  rw [hit] at rest
  cases rest
  refine ⟨_, rfl, ?_⟩
  rw [← deepCopyConfig_eq]
  exact deepCopyConfig_eq_self_iff

/-- Accepted data are loaded and stored. -/
theorem runs_loadConfig_miss (miss : state.cache.get state.now = none)
    (accepted : loader.accept data = .ok config) :
    (loadConfig loader).Runs loaderService state
      [{ request := .cacheGet, reply := .ok none, before := state, after := state },
        { request := .getConfigMap loader.options.ns loader.options.configMapName
          reply := .ok data, before := state, after := state },
        { request := .cacheSet config, reply := .ok (), before := state
          after := { state with cache := state.cache.set state.now config } }]
      (.returned (.ok config)) { state with cache := state.cache.set state.now config } := by
  simp only [loadConfig, loadCached, enabled, if_true]
  refine .call ⟨by rw [miss], rfl⟩ (.call rfl ?_)
  simp only [done_bind, accepted, storeCached, enabled, if_true]
  exact .call ⟨rfl, rfl⟩ (.done _ _)

/-- What the cache holds is returned. -/
theorem runs_loadConfig_hit (hit : state.cache.get state.now = some config) :
    (loadConfig loader).Runs loaderService state
      [{ request := .cacheGet, reply := .ok (some config), before := state, after := state }]
      (.returned (.ok config)) state := by
  simp only [loadConfig, loadCached, enabled, if_true]
  exact .call ⟨by rw [hit], rfl⟩ (.done _ _)

end

/-! ### A load and a load from the cache -/

/-- A loader to which every document is this configuration. -/
def readyLoader (config : OrchestratorConfig) : ConfigMapLoader where
  options := {}
  validator := Selection.plainValidator
  unmarshal _ := .ok config
  describe _ := ""
  parseDuration _ := some (5 * 60 * 1000000000)

def readyData : GoMap String := .ofList [("config.yaml", "kind: OrchestratorConfig")]

/-- A new loader, with an empty cache. -/
def readyState (config : OrchestratorConfig) : LoaderState where
  cache := { ttl := (readyLoader config).ttl }
  now := 100

/-- A configuration with or without a reconciler section. -/
def readyConfig (reconciler : Option RawExtension) : OrchestratorConfig :=
  { Selection.webConfig [Selection.webBackend "web" "1"] with reconciler }

/-- The state after its first load. -/
def loadedState (reconciler : Option RawExtension) : LoaderState :=
  let state := readyState (readyConfig reconciler)
  { state with cache := state.cache.set state.now (readyConfig reconciler) }

theorem accept_readyConfig (reconciler : Option RawExtension) :
    (readyLoader (readyConfig reconciler)).accept readyData = .ok (readyConfig reconciler) := by
  have valid : validate Selection.plainValidator (readyConfig reconciler) = .ok () := rfl
  have given : readyData.get? "config.yaml" = some "kind: OrchestratorConfig" := by
    decide +kernel
  simp only [ConfigMapLoader.accept, readyLoader, given, ConfigMapLoader.parseConfig, valid]

/-- The first load of a new loader, and one a second later. -/
theorem runs_ready (reconciler : Option RawExtension) :
    (∃ events, (loadConfig (readyLoader (readyConfig reconciler))).Runs loaderService
      (readyState (readyConfig reconciler)) events
      (.returned (.ok (readyConfig reconciler))) (loadedState reconciler)) ∧
    ∃ events, (loadConfig (readyLoader (readyConfig reconciler))).Runs loaderService
      { loadedState reconciler with now := 1000000100 } events
      (.returned (.ok (readyConfig none))) { loadedState reconciler with now := 1000000100 } := by
  constructor
  · exact ⟨_, runs_loadConfig_miss rfl rfl (accept_readyConfig reconciler)⟩
  · refine ⟨_, runs_loadConfig_hit rfl ?_⟩
    have within : ((1000000100 : Time) : Int) - (100 : Time) ≤ 5 * 60 * 1000000000 := by
      decide
    exact ConfigCache.get_set within

theorem cached_config_ready :
    ∃ served, (.ok (readyConfig none) : Except GoError OrchestratorConfig) = .ok served ∧
      (served = readyConfig none ↔ (readyConfig none).reconciler = none) := by
  obtain ⟨⟨_, first⟩, _, second⟩ := runs_ready none
  exact cached_config_iff rfl rfl first (by decide) second

/-- Settings of the reconciler. -/
def patience : RawExtension := ⟨"\x7b\"retry\":\x7b\"defaultRequeueDelay\":60\x7d\x7d"⟩

/-- They are gone on the second load. -/
theorem cached_config_loses_reconciler :
    readyConfig none ≠ readyConfig (some patience) ∧
      (∃ events, (loadConfig (readyLoader (readyConfig (some patience)))).Runs loaderService
        (readyState (readyConfig (some patience))) events
        (.returned (.ok (readyConfig (some patience)))) (loadedState (some patience))) ∧
      ∃ events, (loadConfig (readyLoader (readyConfig (some patience)))).Runs loaderService
        { loadedState (some patience) with now := 1000000100 } events
        (.returned (.ok (readyConfig none)))
        { loadedState (some patience) with now := 1000000100 } := by
  refine ⟨fun same => ?_, runs_ready (some patience)⟩
  have sections : none = some patience := congrArg OrchestratorConfig.reconciler same
  cases sections

/-! ### Loads and events at once -/

/-- The goroutines that use a loader: callers of `LoadConfig`, and the informer with an
event. -/
inductive LoaderThread where
  | load (worker : Nat)
  | handle (worker : Nat) (eventType : ConfigEventType) (object : WatchedObject)
deriving DecidableEq

/-- A load, and what it returns. -/
def loadAndDeliver (loader : ConfigMapLoader) : LoaderProgram Unit :=
  (loadConfig loader).bind fun result => (Program.request (.deliver result)).discard

/-- Loads and events interleaved call by call, while the clock goes on. -/
def loaderRules (loader : ConfigMapLoader) : Rules LoaderThread LoaderCall GoError LoaderState where
  service _ := loaderService
  starts
    | .load _, program => program = loadAndDeliver loader
    | .handle _ eventType object, program => program = handleConfigMapEvent loader eventType object
  admits _ _ _ := True
  environment := TimePasses

/-- Nothing is cached yet. -/
def NothingCached (state : LoaderState) : Prop := state.cache.config = none

/-- The configuration that a call hands to the caller of `LoadConfig`. -/
def LoaderCall.delivered {answer : Type} : LoaderCall answer → Option OrchestratorConfig
  | .deliver (.ok config) => some config
  | _ => none

/-- A read that failed, or whose data cannot be parsed or validated. -/
def FailedRead (loader : ConfigMapLoader) (event : Event LoaderCall GoError LoaderState) : Prop :=
  match event with
  | ⟨⟨.getConfigMap _ _, reply⟩, _, _⟩ =>
    match reply with
    | .error _ => True
    | .ok data => ∃ fault, loader.accept data = .error fault
  | _ => False

/-- A load or an event that fails to parse or validate: a load that has read such data,
or an event with such an object. -/
def Failing (loader : ConfigMapLoader) :
    LoaderThread → List (Event LoaderCall GoError LoaderState) → Prop
  | .load _, history => ∃ event ∈ history, FailedRead loader event
  | .handle _ _ (.other _), _ => True
  | .handle _ eventType (.configMap data), _ =>
    eventType ≠ .deleted ∧ ∃ fault, loader.accept data = .error fault

/-! ### What is cached is valid -/

/-- What the cache holds has passed the validator. -/
def ValidCache (loader : ConfigMapLoader) (state : LoaderState) : Prop :=
  ∀ config ∈ state.cache.config, validate loader.validator config = .ok ()

/-- The validator does not look at the reconciler section, which is all that a copy
loses. -/
theorem validate_deepCopyConfig (v : Validator) (config : OrchestratorConfig) :
    validate v (deepCopyConfig config) = validate v config := by
  rw [deepCopyConfig_eq]
  rfl

theorem ValidCache.get (valid : ValidCache loader state)
    (held : state.cache.get state.now = some config) :
    validate loader.validator config = .ok () := by
  unfold ConfigCache.get at held
  split at held
  · cases held
  next stored found =>
    split at held
    · cases held
    · cases held
      rw [validate_deepCopyConfig]
      exact valid stored found

theorem validCache_set (valid : validate loader.validator config = .ok ()) :
    ValidCache loader { state with cache := state.cache.set state.now config } := by
  intro stored held
  cases held
  rw [validate_deepCopyConfig]
  exact valid

theorem validate_of_accept (accepted : loader.accept data = .ok config) :
    validate loader.validator config = .ok () := by
  unfold ConfigMapLoader.accept at accepted
  split at accepted
  · cases accepted
  · split at accepted
    · cases accepted
    · split at accepted
      · cases accepted
      next valid =>
        cases accepted
        exact valid

/-! ### Every interleaving -/

/-- None of these calls has changed the cache. -/
def Still (history : List (Event LoaderCall GoError LoaderState)) : Prop :=
  ∀ event ∈ history, event.after.cache = event.before.cache

/-- A load or event that has failed so far has left the cache alone. -/
def Sound (loader : ConfigMapLoader) (thread : LoaderThread)
    (history : List (Event LoaderCall GoError LoaderState)) : Prop :=
  Still history ∨ ¬Failing loader thread history

/-- What each call does: it keeps the cache valid, hands out only valid configurations,
and does not let its load or event fail after a change of the cache. -/
structure Promise (loader : ConfigMapLoader) (thread : LoaderThread)
    (history : List (Event LoaderCall GoError LoaderState))
    (event : Event LoaderCall GoError LoaderState) : Prop where
  valid : ValidCache loader event.before → ValidCache loader event.after
  delivered : ∀ config, event.request.delivered = some config →
    validate loader.validator config = .ok ()
  sound : Sound loader thread (event :: history)

/-- The terms of each goroutine: the others keep the cache valid. -/
def loaderContract (loader : ConfigMapLoader) (thread : LoaderThread) :
    Contract LoaderCall GoError LoaderState where
  service := loaderService
  rely before after := ValidCache loader before → ValidCache loader after
  rely_refl _ valid := valid
  rely_trans first second valid := second (first valid)
  admits _ _ := True
  guarantee := Promise loader thread

section Calls

variable {thread : LoaderThread} {history : List (Event LoaderCall GoError LoaderState)}
  {event : Event LoaderCall GoError LoaderState}

theorem Still.nil : Still [] := by
  intro event member
  cases member

theorem Still.cons (still : Still history) (same : event.after = event.before) :
    Still (event :: history) :=
  List.forall_mem_cons.mpr ⟨congrArg LoaderState.cache same, still⟩

/-- Only a read of the ConfigMap can make a load fail. -/
theorem not_failing_cons (sound : ¬Failing loader thread history)
    (passed : ¬FailedRead loader event) : ¬Failing loader thread (event :: history) := by
  intro failing
  match thread, failing with
  | .load _, ⟨past, member, failed⟩ =>
    obtain rfl | member := List.mem_cons.mp member
    · exact passed failed
    · exact sound ⟨past, member, failed⟩
  | .handle _ _ (.other _), failing => exact sound failing
  | .handle _ _ (.configMap _), failing => exact sound failing

/-- A call that leaves the state alone, is no failed read and delivers nothing that is
not valid keeps every promise. -/
theorem Promise.of_unchanged (same : event.after = event.before) (passed : ¬FailedRead loader event)
    (sound : Sound loader thread history)
    (delivered : ∀ config, event.request.delivered = some config →
      validate loader.validator config = .ok ()) : Promise loader thread history event where
  valid := by
    rw [same]
    exact fun valid => valid
  delivered := delivered
  sound := sound.imp (fun still => still.cons same) fun sound => not_failing_cons sound passed

end Calls

variable {history : List (Event LoaderCall GoError LoaderState)}

/-- Storing a valid configuration, when nothing has failed. -/
theorem storeCached_safe {thread : LoaderThread} (valid : validate loader.validator config = .ok ())
    (sound : ¬Failing loader thread history) :
    Safe (loaderContract loader thread)
      (fun _ history _ => ¬Failing loader thread history) (storeCached loader config) history
      state := by
  unfold storeCached
  split
  · intro before _ reply after served _
    obtain ⟨rfl, rfl⟩ := served
    refine ⟨⟨fun _ => validCache_set valid, nofun, .inr ?_⟩, fun _ _ => ?_⟩
    all_goals exact not_failing_cons sound id
  · exact fun _ _ => sound

/-- A result is an error or a valid configuration. -/
def ValidResult (loader : ConfigMapLoader) (result : Except GoError OrchestratorConfig) : Prop :=
  ∀ config, result = .ok config → validate loader.validator config = .ok ()

theorem loadUncached_safe (still : Still history) (sound : ¬Failing loader (.load worker) history) :
    Safe (loaderContract loader (.load worker))
      (fun result history _ => ValidResult loader result ∧
        Sound loader (.load worker) history) (loadUncached loader) history state := by
  intro before _ reply after served _
  have same : after = before := served
  refine ⟨⟨?_, nofun, .inl (still.cons same)⟩, ?_⟩
  · rw [same]
    exact fun valid => valid
  cases reply with
  | error err => exact fun _ _ => ⟨nofun, .inl (still.cons same)⟩
  | ok data =>
    simp only [done_bind]
    cases accepted : loader.accept data with
    | error fault => exact fun _ _ => ⟨nofun, .inl (still.cons same)⟩
    | ok config =>
      have valid := validate_of_accept accepted
      refine Safe.bind ((storeCached_safe valid ?_).mono
        fun _ _ _ stored => ?_)
      · refine not_failing_cons sound ?_
        rintro ⟨fault, refused⟩
        rw [accepted] at refused
        cases refused
      · refine fun later _ => ⟨fun loaded same => ?_, .inr stored⟩
        cases same
        exact valid

theorem loadConfig_safe (valid : ValidCache loader state) :
    Safe (loaderContract loader (.load worker))
      (fun result history _ => ValidResult loader result ∧
        Sound loader (.load worker) history) (loadConfig loader) [] state := by
  have started : ¬Failing loader (.load worker) [] := by
    rintro ⟨event, member, _⟩
    cases member
  unfold loadConfig loadCached
  split
  · intro before moved reply after served _
    obtain ⟨rfl, rfl⟩ := served
    refine ⟨.of_unchanged rfl id (.inl .nil) nofun, ?_⟩
    cases held : after.cache.get after.now with
    | some config =>
      refine fun later _ => ⟨fun loaded same => ?_, .inl (Still.nil.cons rfl)⟩
      cases same
      exact (moved valid).get held
    | none => exact loadUncached_safe (Still.nil.cons rfl) (not_failing_cons started id)
  · exact loadUncached_safe .nil started

theorem loadAndDeliver_safe (valid : ValidCache loader state) :
    Safe (loaderContract loader (.load worker)) (fun _ _ _ => True)
      (loadAndDeliver loader) [] state := by
  refine Safe.bind ((loadConfig_safe valid).mono fun result history later returned => ?_)
  intro before _ reply after served _
  refine ⟨.of_unchanged served.2 id returned.2 fun config handed => ?_, fun _ _ => trivial⟩
  cases result with
  | error fault => cases handed
  | ok loaded =>
    have same : loaded = config := Option.some.inj handed
    exact returned.1 config (congrArg _ same)

theorem broadcast_safe {thread : LoaderThread} (event : ConfigEvent)
    (sound : Sound loader thread history) :
    Safe (loaderContract loader thread) (fun _ _ _ => True) (broadcast event)
      history state := by
  intro before _ reply after served _
  exact ⟨.of_unchanged served.2 id sound nofun, fun _ _ => trivial⟩

theorem handleConfigMapEvent_safe {eventType : ConfigEventType} {object : WatchedObject} :
    Safe (loaderContract loader (.handle worker eventType object))
      (fun _ _ _ => True) (handleConfigMapEvent loader eventType object) [] state := by
  cases object with
  | other typeName => exact broadcast_safe _ (.inl .nil)
  | configMap data =>
    unfold handleConfigMapEvent
    dsimp only
    split
    · cases accepted : loader.accept data with
      | error fault => exact broadcast_safe _ (.inl .nil)
      | ok config =>
        refine Safe.bind ((storeCached_safe (validate_of_accept accepted) ?_).mono
          fun _ _ _ sound => broadcast_safe _ (.inr sound))
        rintro ⟨-, fault, refused⟩
        rw [accepted] at refused
        cases refused
    next deleted =>
      split
      · intro before _ reply after served _
        obtain ⟨rfl, rfl⟩ := served
        have removed : ¬Failing loader (.handle worker eventType (.configMap data))
            [{ request := .cacheInvalidate, reply := .ok (), before
               after := { before with cache := before.cache.invalidate } }] :=
          fun failing => deleted failing.1
        exact ⟨⟨fun _ => nofun, nofun, .inr removed⟩, broadcast_safe _ (.inr removed)⟩
      · exact broadcast_safe _ (.inl .nil)

/-- The rely/guarantee proof. -/
def loaderVerified (loader : ConfigMapLoader) :
    Verified (loaderRules loader) NothingCached where
  invariant := ValidCache loader
  rely _ before after := ValidCache loader before → ValidCache loader after
  rely_refl _ _ valid := valid
  rely_trans _ _ _ _ first second valid := second (first valid)
  guarantee := Promise loader
  invariant_initial empty := by
    intro config held
    rw [empty] at held
    cases held
  invariant_environment valid moved := by
    intro config held
    rw [moved.2] at held
    exact valid config held
  invariant_exchange valid kept := kept.valid valid
  rely_environment _ moved valid := by
    intro config held
    rw [moved.2] at held
    exact valid config held
  rely_exchange _ _ kept := kept.valid
  safe {thread program state} starts valid := by
    cases thread with
    | load worker =>
      cases starts
      exact loadAndDeliver_safe valid
    | handle worker eventType object =>
      cases starts
      exact handleConfigMapEvent_safe

/-- Whatever the interleaving of loads and events, only validated configurations are
handed out, and a load or event that fails has never changed the cache. -/
theorem served_configs_validated {system next : System LoaderThread LoaderCall GoError LoaderState}
    {thread : LoaderThread} {history : List (Event LoaderCall GoError LoaderState)}
    {event : Event LoaderCall GoError LoaderState}
    (reached : Reachable (loaderRules loader) NothingCached system)
    (moved : System.Step (loaderRules loader) system (.exchange thread history event) next) :
    (∀ config, event.request.delivered = some config →
      validate loader.validator config = .ok ()) ∧
    (Failing loader thread (event :: history) →
      ∀ past ∈ event :: history, past.after.cache = past.before.cache) := by
  have kept := (loaderVerified loader).guarantee_of_reachable reached moved
  refine ⟨kept.delivered, fun failing => ?_⟩
  exact kept.sound.resolve_right fun sound => sound failing

/-- Whatever a load returns is then delivered. -/
theorem runs_loadAndDeliver {final : LoaderState}
    {events : List (Event LoaderCall GoError LoaderState)}
    {result : Except GoError OrchestratorConfig}
    (run : (loadConfig loader).Runs loaderService state events (.returned result) final) :
    (loadAndDeliver loader).Runs loaderService state
      (events ++ [{ request := .deliver result, reply := .ok (), before := final
                    after := final }]) (.returned ()) final :=
  run.bind (.call ⟨rfl, rfl⟩ (.done _ _))

/-- An event with data that are refused is broadcast as an error. -/
theorem runs_handle_refused {eventType : ConfigEventType} {fault : DataFault}
    (live : eventType ≠ .deleted) (refused : loader.accept data = .error fault) :
    (handleConfigMapEvent loader eventType (.configMap data)).Runs loaderService state
      [{ request := .broadcastEvent
          { type := .error, error := some (eventFault loader.options fault) }
         reply := .ok (), before := state, after := state }] (.returned ()) state := by
  simp only [handleConfigMapEvent, if_pos live, refused]
  exact .call ⟨rfl, rfl⟩ (.done _ _)

/-- The first load hands out a valid configuration; an update to an empty ConfigMap fails
and changes nothing. -/
theorem served_configs_validated_ready :
    validate Selection.plainValidator (readyConfig none) = .ok () ∧
      ∃ (event : Event LoaderCall GoError LoaderState) (history : List _),
        Failing (readyLoader (readyConfig none)) (.handle 0 .modified (.configMap .empty))
          (event :: history) ∧ event.after.cache = event.before.cache := by
  have initial : Reachable (loaderRules (readyLoader (readyConfig none)))
      NothingCached { state := readyState (readyConfig none), thread := fun _ => none } :=
    .initial rfl
  have missing : (readyLoader (readyConfig none)).accept .empty = .error .missing := rfl
  have live : ConfigEventType.modified ≠ .deleted := nofun
  constructor
  · have run := runs_loadAndDeliver (runs_loadConfig_miss rfl
      (show (readyState (readyConfig none)).cache.get _ = none from rfl)
      (accept_readyConfig none))
    obtain ⟨history, before, after, -, reached, moved⟩ :=
      initial.exists_exchange_of_mem (LoaderThread.load 0) rfl rfl run
        (.of_forall (fun _ _ => trivial) _ _) (List.mem_append_right _ (.head _))
    exact (served_configs_validated reached moved).1 _ rfl
  · have starts : (loaderRules (readyLoader (readyConfig none))).starts
        (.handle 0 .modified (.configMap .empty)) _ := rfl
    obtain ⟨history, before, after, -, reached, moved⟩ :=
      initial.exists_exchange_of_mem _ rfl starts (runs_handle_refused live missing)
        (.of_forall (fun _ _ => trivial) _ _) (.head _)
    exact ⟨_, history, ⟨live, _, missing⟩,
      (served_configs_validated reached moved).2 ⟨live, _, missing⟩ _ (.head _)⟩

end ScoreOrchestrator.Config
