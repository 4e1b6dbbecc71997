/-
Module: Config.Watchers
Purpose: The watchers of the configuration loader: their channels, the registry, the
  goroutines that clean up after a cancelled context, and what `Watch`, `Close` and
  `broadcastEvent` do to them, each as one step under `watchMutex`.
Main exports: EventChannel, WatchState, WatchAct, WatchState.step, WatchState.run
-/
import ScoreOrchestrator.Config.Loader

namespace ScoreOrchestrator.Config

open Foundation

/-! ### Channels -/

/-- The panics of the Go runtime on a closed channel. -/
inductive ChannelPanic where
  | closeOfClosedChannel
  | sendOnClosedChannel
deriving DecidableEq, Repr

/-- A `chan ConfigEvent` with room for ten events. -/
structure EventChannel where
  buffer : List ConfigEvent := []
  closed : Bool := false

/-- `close(ch)`. -/
def EventChannel.close (channel : EventChannel) : Except ChannelPanic EventChannel :=
  if channel.closed then .error .closeOfClosedChannel
  else .ok { channel with closed := true }

/-- `select { case ch <- event: default: }`: a full channel is skipped, but a closed one
is ready to be sent on, which panics. -/
def EventChannel.offer (event : ConfigEvent) (channel : EventChannel) :
    Except ChannelPanic EventChannel :=
  if channel.closed then .error .sendOnClosedChannel
  else if channel.buffer.length < 10 then
    .ok { channel with buffer := channel.buffer ++ [event] }
  else .ok channel

/-- `<-ch`, by whoever watches. -/
def EventChannel.receive (channel : EventChannel) : EventChannel :=
  { channel with buffer := channel.buffer.tail }

/-! ### The loader's watchers -/

/-- A goroutine of `Watch` that waits for its context. -/
structure Cleanup where
  watcherID : String
  eventCh : Nat
deriving DecidableEq, Repr

/-- The part of `ConfigMapLoader` that `watchMutex` guards.  Channel `n` is the one that
the call of `Watch` number `n` makes; stop channels are numbered likewise, and an informer
is known by the one it runs until. -/
structure WatchState where
  channels : Nat → EventChannel := fun _ => {}
  made : Nat := 0
  watchers : GoMap Nat := .empty
  informer : Option Nat := none
  stopCh : Nat := 0
  cleanups : List Cleanup := []

namespace WatchState

/-- Replace a channel by what an operation on it leaves. -/
def onChannel (operation : EventChannel → Except ChannelPanic EventChannel) (state : WatchState)
    (ch : Nat) : Except ChannelPanic WatchState :=
  (operation (state.channels ch)).map fun channel =>
    { state with channels := Function.update state.channels ch channel }

/-- `Watch` under the lock: a new channel in the registry, and an informer if there is
none.  `startInformer` sets `l.informer` before anything can fail. -/
def register (watcherID : String) (state : WatchState) : WatchState :=
  { state with
    made := state.made + 1
    watchers := state.watchers.put (watcherID, state.made)
    informer := some (state.informer.getD state.stopCh) }

/-- `Watch`, with the id it makes from the time and what starting the informer comes
to. -/
def watch (watcherID : String) (startInformer : Except GoError Unit) (state : WatchState) :
    Except ChannelPanic (Except GoError Nat × WatchState) :=
  let eventCh := state.made
  let registered := state.register watcherID
  match state.informer, startInformer with
  | none, .error err => do
      -- The channel is closed, but stays in the registry.
      let closed ← registered.onChannel EventChannel.close eventCh
      .ok (.error (err.wrap "failed to start configuration watcher: "), closed)
  | _, _ =>
    .ok (.ok eventCh, { registered with cleanups := ⟨watcherID, eventCh⟩ :: state.cleanups })

/-- The context of a watcher is done: the goroutine that waits for it, if there is one,
unregisters the watcher's id and closes its channel. -/
def cancel (eventCh : Nat) (state : WatchState) : Except ChannelPanic WatchState :=
  match state.cleanups.find? fun cleanup => cleanup.eventCh = eventCh with
  | none => .ok state
  | some cleanup =>
    { state with
      watchers := state.watchers.erase cleanup.watcherID
      cleanups := state.cleanups.filter fun other => other.eventCh ≠ eventCh
    }.onChannel EventChannel.close eventCh

/-- One turn of the loop of `Close`. -/
def closeWatcher (state : WatchState) (watcher : String × Nat) : Except ChannelPanic WatchState :=
  { state with watchers := state.watchers.erase watcher.1 }.onChannel EventChannel.close
    watcher.2

/-- `Close`.  The stop channel is closed and replaced; it is never nil. -/
def close (order : IterOrder) (state : WatchState) : Except ChannelPanic WatchState := do
  let closed ← (order.range state.watchers).foldlM closeWatcher state
  .ok { closed with stopCh := closed.stopCh + 1 }

/-- `broadcastEvent`. -/
def broadcastEvent (order : IterOrder) (event : ConfigEvent) (state : WatchState) :
    Except ChannelPanic WatchState :=
  (order.range state.watchers).foldlM
    (fun state watcher => state.onChannel (EventChannel.offer event) watcher.2) state

end WatchState

/-! ### Runs -/

/-- What can happen to the watchers of a loader. -/
inductive WatchAct where
  | watch (watcherID : String) (startInformer : Except GoError Unit)
  | cancel (eventCh : Nat)
  | close (order : IterOrder)
  | broadcastEvent (order : IterOrder) (event : ConfigEvent)
  | receive (eventCh : Nat)

namespace WatchState

def step (state : WatchState) : WatchAct → Except ChannelPanic WatchState
  | .watch watcherID startInformer => (state.watch watcherID startInformer).map Prod.snd
  | .cancel eventCh => state.cancel eventCh
  | .close order => state.close order
  | .broadcastEvent order event => state.broadcastEvent order event
  | .receive eventCh => state.onChannel (fun channel => .ok channel.receive) eventCh

/-- One act after the other, from the state of `NewConfigMapLoader`, until one panics. -/
def run (acts : List WatchAct) : Except ChannelPanic WatchState := acts.foldlM step {}

end WatchState

end ScoreOrchestrator.Config
