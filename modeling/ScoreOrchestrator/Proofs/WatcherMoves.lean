/-
Module: Proofs.WatcherMoves
Purpose: What each act on the watchers of the loader does: which channels it needs open,
  which it closes, and what it leaves in the registry.
-/
import ScoreOrchestrator.Config.Watchers
import ScoreOrchestrator.Foundation.Traverse

namespace ScoreOrchestrator.Config

open Foundation

variable {state after before : WatchState} {ch : Nat} {event : ConfigEvent} {order : IterOrder}
  {watcher : String × Nat}

namespace WatchState

/-! ### Channels -/

/-- A channel that nobody has closed. -/
def Open (state : WatchState) (ch : Nat) : Prop := (state.channels ch).closed = false

/-- The state with a channel closed. -/
def shut (state : WatchState) (ch : Nat) : WatchState :=
  { state with channels :=
      Function.update state.channels ch { state.channels ch with closed := true } }

theorem open_shut {other : Nat} : (state.shut ch).Open other ↔ other ≠ ch ∧ state.Open other := by
  unfold shut Open
  by_cases same : other = ch
  · subst same
    simp
  · simp [same]

theorem close_of_open (unused : state.Open ch) :
    state.onChannel EventChannel.close ch = .ok (state.shut ch) := by
  unfold Open at unused
  simp only [onChannel, EventChannel.close, unused]
  rfl

theorem eq_shut_of_close (closed : state.onChannel EventChannel.close ch = .ok after) :
    state.Open ch ∧ after = state.shut ch := by
  cases used : (state.channels ch).closed with
  | true =>
    simp only [onChannel, EventChannel.close, used] at closed
    cases closed
  | false =>
    rw [close_of_open used] at closed
    cases closed
    exact ⟨used, rfl⟩

/-- The states differ in what the buffers hold at most. -/
structure Alike (before after : WatchState) : Prop where
  made : after.made = before.made
  watchers : after.watchers = before.watchers
  informer : after.informer = before.informer
  cleanups : after.cleanups = before.cleanups
  opens : ∀ ch, after.Open ch ↔ before.Open ch

theorem Alike.refl (state : WatchState) : Alike state state := ⟨rfl, rfl, rfl, rfl, fun _ => .rfl⟩

theorem Alike.trans {first second third : WatchState} (before : Alike first second)
    (after : Alike second third) : Alike first third where
  made := after.made.trans before.made
  watchers := after.watchers.trans before.watchers
  informer := after.informer.trans before.informer
  cleanups := after.cleanups.trans before.cleanups
  opens ch := (after.opens ch).trans (before.opens ch)

/-- An operation that neither opens nor closes the channel. -/
theorem alike_of_onChannel {operation : EventChannel → Except ChannelPanic EventChannel}
    (keeps : ∀ before after, operation before = .ok after → after.closed = before.closed)
    (done : state.onChannel operation ch = .ok after) : Alike state after := by
  unfold onChannel at done
  cases operated : operation (state.channels ch) with
  | error fault =>
    rw [operated] at done
    cases done
  | ok channel =>
    rw [operated] at done
    cases done
    refine ⟨rfl, rfl, rfl, rfl, fun other => ?_⟩
    unfold Open
    by_cases same : other = ch
    · subst same
      simp [keeps _ _ operated]
    · simp [same]

theorem closed_of_offer {before after : EventChannel} (offered : before.offer event = .ok after) :
    after.closed = before.closed := by
  unfold EventChannel.offer at offered
  split at offered
  · cases offered
  · split at offered <;> cases offered <;> rfl

theorem exists_offer (event : ConfigEvent) (unused : state.Open ch) :
    ∃ after, state.onChannel (EventChannel.offer event) ch = .ok after := by
  unfold Open at unused
  simp only [onChannel, EventChannel.offer, unused, Bool.false_eq_true, if_false]
  split <;> exact ⟨_, rfl⟩

theorem open_of_offer (sent : state.onChannel (EventChannel.offer event) ch = .ok after) :
    state.Open ch := by
  unfold Open
  cases used : (state.channels ch).closed with
  | false => rfl
  | true =>
    simp only [onChannel, EventChannel.offer, used, if_true] at sent
    cases sent

theorem alike_of_receive (received : state.step (.receive ch) = .ok after) : Alike state after := by
  unfold step at received
  refine alike_of_onChannel (fun before after same => ?_) received
  cases same
  rfl

theorem alike_of_broadcast (sent : state.broadcastEvent order event = .ok after) :
    Alike state after := by
  refine foldlM_ok_keeps (fun _ current => Alike state current)
    (fun _ _ _ _ turned before => ?_) sent (.refl state)
  exact before.trans (alike_of_onChannel (fun _ _ => closed_of_offer) turned)

/-- A broadcast to open channels. -/
theorem exists_broadcast (live : ∀ watcher ∈ state.watchers.rows, state.Open watcher.2) :
    ∃ after, state.broadcastEvent order event = .ok after := by
  have each : ∀ watcher ∈ order.range state.watchers, state.Open watcher.2 :=
    fun watcher member => live watcher (IterOrder.mem_range.mp member)
  refine (exists_foldlM_ok (fun left current => ∀ watcher ∈ left, current.Open watcher.2)
    (fun watcher left current live => ?_) each).imp fun _ sent => sent.1
  obtain ⟨after, sent⟩ := exists_offer event (live watcher (.head _))
  have alike := alike_of_onChannel (fun _ _ => closed_of_offer) sent
  exact ⟨after, sent, fun other member => (alike.opens _).mpr (live other (.tail _ member))⟩

/-! ### Opening and cancelling -/

/-- `Watch`, once the informer runs. -/
def track (watcherID : String) (state : WatchState) : WatchState :=
  { state.register watcherID with cleanups := ⟨watcherID, state.made⟩ :: state.cleanups }

/-- What a goroutine does before it closes its channel. -/
def forget (cleanup : Cleanup) (state : WatchState) : WatchState :=
  { state with
    watchers := state.watchers.erase cleanup.watcherID
    cleanups := state.cleanups.filter fun other => other.eventCh ≠ cleanup.eventCh }

theorem step_watch_failed {watcherID : String} {err : GoError} (first : state.informer = none)
    (fresh : state.Open state.made) :
    state.step (.watch watcherID (.error err)) =
      .ok ((state.register watcherID).shut state.made) := by
  have closed : (state.register watcherID).onChannel EventChannel.close state.made =
      .ok ((state.register watcherID).shut state.made) := close_of_open fresh
  simp only [step, watch, first, closed]
  rfl

theorem step_watch_started {watcherID : String} {startInformer : Except GoError Unit}
    (started : state.informer = none → startInformer = .ok ()) :
    state.step (.watch watcherID startInformer) = .ok (state.track watcherID) := by
  cases running : state.informer with
  | none =>
    cases started running
    simp only [step, watch, running]
    rfl
  | some stopCh =>
    simp only [step, watch, running]
    rfl

/-- What a cancellation comes to. -/
theorem cancel_cases (state : WatchState) (ch : Nat) :
    (∀ cleanup ∈ state.cleanups, cleanup.eventCh ≠ ch) ∧ state.cancel ch = .ok state ∨
      ∃ cleanup ∈ state.cleanups, cleanup.eventCh = ch ∧
        state.cancel ch = (state.forget cleanup).onChannel EventChannel.close ch := by
  unfold cancel
  split
  next absent =>
    refine .inl ⟨fun cleanup member same => ?_, rfl⟩
    exact List.find?_eq_none.mp absent cleanup member (decide_eq_true same)
  next cleanup found =>
    have held := List.find?_some found
    have same : cleanup.eventCh = ch := of_decide_eq_true held
    refine .inr ⟨cleanup, List.mem_of_find?_eq_some found, same, ?_⟩
    subst same
    rfl

/-! ### Closing -/

/-- What `Close` leaves: no watcher, and their channels closed. -/
structure Emptied (before after : WatchState) : Prop where
  made : after.made = before.made
  informer : after.informer = before.informer
  cleanups : after.cleanups = before.cleanups
  watchers : after.watchers.rows = []
  opens : ∀ ch, after.Open ch ↔
    before.Open ch ∧ ∀ watcher ∈ before.watchers.rows, watcher.2 ≠ ch

/-- The loop of `Close` after some of its turns. -/
structure Closing (before : WatchState) (visited : List (String × Nat))
    (current : WatchState) : Prop where
  made : current.made = before.made
  informer : current.informer = before.informer
  cleanups : current.cleanups = before.cleanups
  watchers : ∀ watcher ∈ current.watchers.rows, watcher ∈ before.watchers.rows ∧
    ∀ past ∈ visited, past.1 ≠ watcher.1
  opens : ∀ ch, current.Open ch ↔ before.Open ch ∧ ∀ past ∈ visited, past.2 ≠ ch

theorem Closing.turn {current : WatchState} {visited : List (String × Nat)}
    (closing : Closing before visited current) (turned : current.closeWatcher watcher = .ok after) :
    Closing before (visited ++ [watcher]) after := by
  obtain ⟨-, rfl⟩ := eq_shut_of_close turned
  refine ⟨closing.made, closing.informer, closing.cleanups, ?_, fun ch => ?_⟩
  · intro left member
    obtain ⟨member, other⟩ := Table.mem_erase.mp member
    obtain ⟨known, unvisited⟩ := closing.watchers left member
    refine ⟨known, fun past visited => ?_⟩
    obtain visited | visited := List.mem_append.mp visited
    · exact unvisited past visited
    · cases List.mem_singleton.mp visited
      exact fun same => other same.symm
  · rw [open_shut]
    constructor
    · rintro ⟨other, unused⟩
      obtain ⟨unused, unvisited⟩ := (closing.opens ch).mp unused
      refine ⟨unused, fun past visited => ?_⟩
      obtain visited | visited := List.mem_append.mp visited
      · exact unvisited past visited
      · cases List.mem_singleton.mp visited
        exact other.symm
    · rintro ⟨unused, unvisited⟩
      refine ⟨fun same => unvisited watcher (by simp) same.symm, ?_⟩
      exact (closing.opens ch).mpr
        ⟨unused, fun past visited => unvisited past (List.mem_append_left _ visited)⟩

/-- The loop of `Close` over the watchers that are left. -/
def ClosingLeft (before : WatchState) (order : IterOrder) (left : List (String × Nat))
    (current : WatchState) : Prop :=
  ∃ visited, visited ++ left = order.range before.watchers ∧ Closing before visited current

theorem ClosingLeft.start (state : WatchState) (order : IterOrder) :
    ClosingLeft state order (order.range state.watchers) state := by
  refine ⟨[], rfl, rfl, rfl, rfl, fun watcher member => ⟨member, nofun⟩, fun ch => ?_⟩
  exact ⟨fun unused => ⟨unused, nofun⟩, fun unused => unused.1⟩

theorem ClosingLeft.turn {current : WatchState} {left : List (String × Nat)}
    (closing : ClosingLeft before order (watcher :: left) current)
    (turned : current.closeWatcher watcher = .ok after) : ClosingLeft before order left after := by
  obtain ⟨visited, parted, closing⟩ := closing
  refine ⟨visited ++ [watcher], ?_, closing.turn turned⟩
  rw [List.append_assoc]
  exact parted

theorem ClosingLeft.emptied (closing : ClosingLeft before order [] after) :
    Emptied before after := by
  obtain ⟨visited, all, done⟩ := closing
  rw [List.append_nil] at all
  subst all
  refine ⟨done.made, done.informer, done.cleanups, ?_, fun ch => ?_⟩
  · refine List.eq_nil_iff_forall_not_mem.mpr fun watcher member => ?_
    obtain ⟨known, unvisited⟩ := done.watchers watcher member
    exact unvisited watcher (IterOrder.mem_range.mpr known) rfl
  · have opens := done.opens ch
    simp only [IterOrder.mem_range] at opens
    exact opens

theorem emptied_of_close (closed : state.close order = .ok after) : Emptied state after := by
  unfold close at closed
  cases looped : (order.range state.watchers).foldlM closeWatcher state with
  | error fault =>
    rw [looped] at closed
    cases closed
  | ok emptied =>
    rw [looped] at closed
    cases closed
    have left := foldlM_ok_keeps (ClosingLeft state order)
      (fun _ _ _ _ turned closing => closing.turn turned) looped (.start state order)
    obtain ⟨made, informer, cleanups, watchers, opens⟩ := left.emptied
    exact ⟨made, informer, cleanups, watchers, opens⟩

/-- Watchers whose channels can all be closed. -/
structure Closable (left : List (String × Nat)) (state : WatchState) : Prop where
  apart : left.Pairwise fun first second => first.2 ≠ second.2
  live : ∀ watcher ∈ left, state.Open watcher.2

theorem Closable.turn {left : List (String × Nat)} (closable : Closable (watcher :: left) state) :
    ∃ after, state.closeWatcher watcher = .ok after ∧ Closable left after := by
  obtain ⟨others, apart⟩ := List.pairwise_cons.mp closable.apart
  have unused : state.Open watcher.2 := closable.live watcher (.head _)
  refine ⟨_, close_of_open unused, apart, fun other member => ?_⟩
  exact open_shut.mpr ⟨(others other member).symm, closable.live other (.tail _ member)⟩

theorem exists_close (unshared : ∀ first ∈ state.watchers.rows, ∀ second ∈ state.watchers.rows,
      first.2 = second.2 → first = second)
    (live : ∀ watcher ∈ state.watchers.rows, state.Open watcher.2) :
    ∃ after, state.close order = .ok after := by
  have distinct : (order.range state.watchers).Nodup := (order.nodup_range _).of_map
  have closable : Closable (order.range state.watchers) state := by
    constructor
    · refine List.Pairwise.imp_of_mem (fun first second differ same => ?_) distinct
      exact differ
        (unshared _ (IterOrder.mem_range.mp first) _ (IterOrder.mem_range.mp second) same)
    · exact fun watcher member => live watcher (IterOrder.mem_range.mp member)
  obtain ⟨emptied, looped, -⟩ := exists_foldlM_ok Closable
    (fun _ _ _ closable => closable.turn) closable
  unfold close
  rw [looped]
  exact ⟨_, rfl⟩

/-- A loop that needs the channel of each item open, and opens none, has found all of
them open. -/
theorem open_of_loop {turn : WatchState → String × Nat → Except ChannelPanic WatchState}
    (needs : ∀ current watcher after, turn current watcher = .ok after →
      current.Open watcher.2 ∧ ∀ ch, after.Open ch → current.Open ch)
    {watchers : List (String × Nat)} {final : WatchState}
    (looped : watchers.foldlM turn state = .ok final) :
    ∀ watcher ∈ watchers, state.Open watcher.2 := by
  have found := foldlM_ok_keeps
    (fun left current => (∀ ch, current.Open ch → state.Open ch) ∧
      ∀ watcher ∈ watchers, watcher ∈ left ∨ state.Open watcher.2)
    (fun watcher left current after turned before => by
      obtain ⟨unused, shrinks⟩ := needs current watcher after turned
      refine ⟨fun ch later => before.1 ch (shrinks ch later), fun other member => ?_⟩
      obtain here | was := before.2 other member
      · obtain rfl | here := List.mem_cons.mp here
        · exact .inr (before.1 _ unused)
        · exact .inl here
      · exact .inr was)
    looped ⟨fun _ unused => unused, fun _ member => .inl member⟩
  exact fun watcher member => (found.2 watcher member).resolve_left nofun

theorem open_of_close (closed : state.close order = .ok after) :
    ∀ watcher ∈ state.watchers.rows, state.Open watcher.2 := by
  unfold close at closed
  cases looped : (order.range state.watchers).foldlM closeWatcher state with
  | error fault =>
    rw [looped] at closed
    cases closed
  | ok emptied =>
    refine fun watcher member => open_of_loop (fun current item after turned => ?_) looped
      watcher (IterOrder.mem_range.mpr member)
    obtain ⟨unused, rfl⟩ := eq_shut_of_close turned
    exact ⟨unused, fun ch later => (open_shut.mp later).2⟩

theorem open_of_broadcast (sent : state.broadcastEvent order event = .ok after) :
    ∀ watcher ∈ state.watchers.rows, state.Open watcher.2 := by
  refine fun watcher member => open_of_loop (fun current item after turned => ?_) sent
    watcher (IterOrder.mem_range.mpr member)
  have alike := alike_of_onChannel (fun _ _ => closed_of_offer) turned
  exact ⟨open_of_offer turned, fun ch => (alike.opens ch).mp⟩

/-! ### What an act does -/

/-- What an act that does not panic does to the watchers. -/
inductive Moves (state : WatchState) : WatchAct → WatchState → Prop where
  | failed {watcherID : String} {err : GoError} (first : state.informer = none) :
      Moves state (.watch watcherID (.error err))
        ((state.register watcherID).shut state.made)
  | started {watcherID : String} {startInformer : Except GoError Unit}
      (runs : state.informer = none → startInformer = .ok ()) :
      Moves state (.watch watcherID startInformer) (state.track watcherID)
  | ignored {ch : Nat} (nobody : ∀ cleanup ∈ state.cleanups, cleanup.eventCh ≠ ch) :
      Moves state (.cancel ch) state
  | cancelled {cleanup : Cleanup} (waiting : cleanup ∈ state.cleanups)
      (unused : state.Open cleanup.eventCh) :
      Moves state (.cancel cleanup.eventCh) ((state.forget cleanup).shut cleanup.eventCh)
  | closed {order : IterOrder} {after : WatchState}
      (live : ∀ watcher ∈ state.watchers.rows, state.Open watcher.2)
      (emptied : Emptied state after) : Moves state (.close order) after
  | sent {order : IterOrder} {event : ConfigEvent} {after : WatchState}
      (live : ∀ watcher ∈ state.watchers.rows, state.Open watcher.2)
      (alike : Alike state after) : Moves state (.broadcastEvent order event) after
  | received {ch : Nat} {after : WatchState} (alike : Alike state after) :
      Moves state (.receive ch) after

theorem moves_of_step {act : WatchAct} (fresh : state.Open state.made)
    (stepped : state.step act = .ok after) : Moves state act after := by
  cases act with
  | watch watcherID startInformer =>
    by_cases runs : state.informer = none → startInformer = .ok ()
    · rw [step_watch_started runs] at stepped
      cases stepped
      exact .started runs
    · obtain ⟨first, failing⟩ := Classical.not_imp.mp runs
      cases startInformer with
      | ok => exact absurd rfl failing
      | error err =>
        rw [step_watch_failed first fresh] at stepped
        cases stepped
        exact .failed first
  | cancel ch =>
    obtain ⟨nobody, same⟩ | ⟨cleanup, waiting, rfl, same⟩ := cancel_cases state ch
    · rw [step, same] at stepped
      cases stepped
      exact .ignored nobody
    · rw [step, same] at stepped
      obtain ⟨unused, rfl⟩ := eq_shut_of_close stepped
      exact .cancelled waiting unused
  | close order => exact .closed (open_of_close stepped) (emptied_of_close stepped)
  | broadcastEvent order event =>
    exact .sent (open_of_broadcast stepped) (alike_of_broadcast stepped)
  | receive ch => exact .received (alike_of_receive stepped)

end WatchState

end ScoreOrchestrator.Config
