/-
Module: Proofs.ConfigDeletion
Purpose: What the cache of the configuration loader holds after any sequence of events, and
  whether a deletion at its end is honoured.
-/
import ScoreOrchestrator.Proofs.ServedConfig

namespace ScoreOrchestrator.Config

open Foundation Program

variable {loader : ConfigMapLoader}

/-! ### Sequences of events -/

/-- The configuration in the cache.  Without caching there is no cache. -/
def ConfigMapLoader.held (loader : ConfigMapLoader) (state : LoaderState) :
    Option OrchestratorConfig :=
  if loader.options.enableCache then state.cache.config else none

/-- The informer has called its handlers for these events, one after the other, with any
time between them. -/
inductive Informed (loader : ConfigMapLoader) (initial : LoaderState) :
    List Delivery → LoaderState → Prop where
  | start : Informed loader initial [] initial
  | wait {deliveries : List Delivery} {before after : LoaderState}
      (earlier : Informed loader initial deliveries before)
      (passes : TimePasses before after) : Informed loader initial deliveries after
  | deliver {deliveries : List Delivery} {before after : LoaderState} {delivery : Delivery}
      {events : List (Event LoaderCall GoError LoaderState)}
      (earlier : Informed loader initial deliveries before)
      (handled : (delivery.handler loader).Runs loaderService before events (.returned ())
        after) :
      Informed loader initial (deliveries ++ [delivery]) after

/-- What is in the cache after an event. -/
def remember (loader : ConfigMapLoader) (held : Option OrchestratorConfig) :
    Delivery → Option OrchestratorConfig
  | .added data | .updated data =>
    match loader.accept data with
    | .ok config => if loader.options.enableCache then some (deepCopyConfig config) else none
    | .error _ => held
  | .deleted _ => none
  | .tombstone => held

/-! ### One event -/

section

variable {before after : LoaderState} {events : List (Event LoaderCall GoError LoaderState)}

theorem broadcast_keeps {event : ConfigEvent}
    (run : (broadcast event).Runs loaderService before events (.returned ()) after) :
    after = before := by
  cases run with
  | call served rest =>
    obtain ⟨rfl, rfl⟩ := served
    exact (Runs.returned_of_done rest).2

/-- A stored configuration is what the cache holds, if there is a cache. -/
theorem held_of_storeCached {config : OrchestratorConfig}
    (run : (storeCached loader config).Runs loaderService before events (.returned ()) after) :
    loader.held after =
      if loader.options.enableCache then some (deepCopyConfig config) else none := by
  unfold storeCached at run
  unfold ConfigMapLoader.held
  split at run
  next enabled =>
    rw [if_pos enabled, if_pos enabled]
    cases run with
    | call served rest =>
      obtain ⟨rfl, rfl⟩ := served
      rw [(Runs.returned_of_done rest).2]
      rfl
  next disabled => rw [if_neg disabled, if_neg disabled]

theorem held_of_live_event {eventType : ConfigEventType} {data : GoMap String}
    (live : eventType ≠ .deleted)
    (run : (handleConfigMapEvent loader eventType (.configMap data)).Runs loaderService before
      events (.returned ()) after) :
    loader.held after =
      match loader.accept data with
      | .ok config => if loader.options.enableCache then some (deepCopyConfig config) else none
      | .error _ => loader.held before := by
  simp only [handleConfigMapEvent, if_pos live] at run
  cases accepted : loader.accept data with
  | error fault =>
    simp only [accepted] at run
    rw [broadcast_keeps run]
  | ok config =>
    simp only [accepted] at run
    obtain ⟨_, _, _, _, -, stored, told⟩ := Runs.exists_of_bind run
    rw [broadcast_keeps told]
    exact held_of_storeCached stored

theorem held_of_deletion (data : GoMap String)
    (run : (handleConfigMapEvent loader .deleted (.configMap data)).Runs loaderService before
      events (.returned ()) after) : loader.held after = none := by
  simp only [handleConfigMapEvent, ne_eq, not_true_eq_false, if_false] at run
  unfold ConfigMapLoader.held
  split
  next enabled =>
    simp only [enabled, if_true] at run
    cases run with
    | call served rest =>
      obtain ⟨rfl, rfl⟩ := served
      rw [broadcast_keeps rest]
      rfl
  next => rfl

/-- The cache after the handler of an event. -/
theorem held_of_handler {delivery : Delivery}
    (run : (delivery.handler loader).Runs loaderService before events (.returned ()) after) :
    loader.held after = remember loader (loader.held before) delivery := by
  cases delivery with
  | added data => exact held_of_live_event (show ConfigEventType.added ≠ .deleted by decide) run
  | updated data =>
    exact held_of_live_event (show ConfigEventType.modified ≠ .deleted by decide) run
  | deleted data => exact held_of_deletion data run
  | tombstone => exact congrArg loader.held (broadcast_keeps run)

end

/-! ### All events -/

/-- The cache after a sequence of events. -/
theorem held_of_informed {initial after : LoaderState} {deliveries : List Delivery}
    (informed : Informed loader initial deliveries after) :
    loader.held after = deliveries.foldl (remember loader) (loader.held initial) := by
  induction informed with
  | start => rfl
  | wait _ passes ih =>
    rw [← ih, ConfigMapLoader.held, passes.2]
    rfl
  | deliver _ handled ih =>
    rw [held_of_handler handled, ih, List.foldl_append]
    rfl

/-- A read of the ConfigMap that the loader is for. -/
def Consults (loader : ConfigMapLoader) (event : Event LoaderCall GoError LoaderState) : Prop :=
  match event with
  | ⟨⟨.getConfigMap ns name, _⟩, _, _⟩ =>
    ns = loader.options.ns ∧ name = loader.options.configMapName
  | _ => False

/-- With nothing in the cache, a load reads the ConfigMap. -/
theorem consults_of_nothing_held {state final : LoaderState}
    {events : List (Event LoaderCall GoError LoaderState)}
    {result : Except GoError OrchestratorConfig} (nothing : loader.held state = none)
    (run : (loadConfig loader).Runs loaderService state events (.returned result) final) :
    ∃ event ∈ events, Consults loader event := by
  have uncached : ∀ {events}, (loadUncached loader).Runs loaderService state events
      (.returned result) final → ∃ event ∈ events, Consults loader event := by
    intro events run
    cases run with
    | call served rest => exact ⟨_, .head _, rfl, rfl⟩
  unfold ConfigMapLoader.held at nothing
  unfold loadConfig loadCached at run
  split at nothing
  next enabled =>
    rw [if_pos enabled] at run
    cases run with
    | call served rest =>
      obtain ⟨rfl, rfl⟩ := served
      simp only [ConfigCache.get, nothing, done_bind] at rest
      obtain ⟨event, member, consults⟩ := uncached rest
      exact ⟨event, .tail _ member, consults⟩
  next disabled =>
    rw [if_neg disabled] at run
    exact uncached run

/-- When the last event is a deletion, the cache holds nothing exactly if that deletion is
delivered as a ConfigMap or nothing was left by the events before it; and then the next
load, at whatever time, reads the ConfigMap. -/
theorem deletion_honoured_iff {initial after : LoaderState} {deliveries : List Delivery}
    {deletion : Delivery} (deletes : deletion.isDeletion = true)
    (informed : Informed loader initial (deliveries ++ [deletion]) after) :
    (loader.held after = none ↔
      (∃ data, deletion = .deleted data) ∨
        deliveries.foldl (remember loader) (loader.held initial) = none) ∧
    (loader.held after = none →
      ∀ later, TimePasses after later → ∀ events result final,
        (loadConfig loader).Runs loaderService later events (.returned result) final →
        ∃ event ∈ events, Consults loader event) := by
  constructor
  · rw [held_of_informed informed, List.foldl_append]
    cases deletion with
    | added data => cases deletes
    | updated data => cases deletes
    | deleted data => exact iff_of_true rfl (.inl ⟨data, rfl⟩)
    | tombstone => simp [remember]
  · intro nothing later passes events result final run
    refine consults_of_nothing_held ?_ run
    rw [← nothing, ConfigMapLoader.held, passes.2]
    rfl

/-! ### A configuration that is deleted -/

/-- The state after the only configuration was added. -/
theorem informed_added : Informed (readyLoader (readyConfig none))
    (readyState (readyConfig none)) [.added readyData] (loadedState none) := by
  have live : ConfigEventType.added ≠ .deleted := nofun
  have handled : ∃ events, (Delivery.handler (readyLoader (readyConfig none))
      (.added readyData)).Runs loaderService (readyState (readyConfig none)) events
      (.returned ()) (loadedState none) := by
    exact ⟨_, .call ⟨rfl, rfl⟩ (.call ⟨rfl, rfl⟩ (.done _ _))⟩
  obtain ⟨_, handled⟩ := handled
  exact .deliver .start handled

/-- It is deleted, and the cache is empty. -/
theorem deletion_honoured_ready :
    ∃ after, Informed (readyLoader (readyConfig none)) (readyState (readyConfig none))
        [.added readyData, .deleted readyData] after ∧
      (readyLoader (readyConfig none)).held after = none := by
  have handled : (Delivery.handler (readyLoader (readyConfig none)) (.deleted readyData)).Runs
      loaderService (loadedState none) _ (.returned ()) _ :=
    .call ⟨rfl, rfl⟩ (.call ⟨rfl, rfl⟩ (.done _ _))
  have informed := informed_added.deliver handled
  exact ⟨_, informed, (deletion_honoured_iff rfl informed).1.mpr (.inl ⟨_, rfl⟩)⟩

/-- If the deletion is delivered as a tombstone, then the deleted configuration is still
loaded a second later, without a read of the ConfigMap. -/
theorem tombstone_keeps_config :
    ∃ after later events,
      Informed (readyLoader (readyConfig none)) (readyState (readyConfig none))
        [.added readyData, .tombstone] after ∧
      (readyLoader (readyConfig none)).held after = some (readyConfig none) ∧
      TimePasses after later ∧
      (loadConfig (readyLoader (readyConfig none))).Runs loaderService later events
        (.returned (.ok (readyConfig none))) later ∧
      ∀ event ∈ events, ¬Consults (readyLoader (readyConfig none)) event := by
  have handled : (Delivery.handler (readyLoader (readyConfig none)) .tombstone).Runs
      loaderService (loadedState none) _ (.returned ()) (loadedState none) :=
    .call ⟨rfl, rfl⟩ (.done _ _)
  have within : ((1000000100 : Time) : Int) - (100 : Time) ≤ 5 * 60 * 1000000000 := by
    decide
  have hit : (loadedState none).cache.get 1000000100 = some (readyConfig none) :=
    ConfigCache.get_set within
  refine ⟨_, { loadedState none with now := 1000000100 }, _, informed_added.deliver handled, ?_,
    ⟨by decide, rfl⟩, runs_loadConfig_hit rfl hit, ?_⟩
  · exact congrArg some (deepCopyConfig_eq (readyConfig none))
  · intro event member
    obtain rfl := List.mem_singleton.mp member
    exact id

end ScoreOrchestrator.Config
