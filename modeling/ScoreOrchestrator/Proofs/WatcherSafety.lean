/-
Module: Proofs.WatcherSafety
Purpose: When the watchers' channels are used safely: which sequences of `Watch`,
  cancellation, `broadcastEvent` and `Close` never close a channel twice or send on a
  closed one, and which do.
-/
import ScoreOrchestrator.Proofs.WatcherMoves

namespace ScoreOrchestrator.Config

open Foundation

variable {ch : Nat} {watcherID : String} {startInformer : Except GoError Unit} {cleanup : Cleanup}

/-! ### Careful sequences -/

/-- How many watchers these acts have opened.  The latest act comes first. -/
def opened : List WatchAct → Nat
  | [] => 0
  | .watch _ _ :: past => opened past + 1
  | _ :: past => opened past

/-- How many had been opened at the last `Close`. -/
def openedAtClose : List WatchAct → Nat
  | [] => 0
  | .close _ :: past => opened past
  | _ :: past => openedAtClose past

/-- The watchers whose contexts have been cancelled. -/
def cancelled : List WatchAct → List Nat
  | [] => []
  | .cancel eventCh :: past =>
    if eventCh < opened past then eventCh :: cancelled past else cancelled past
  | _ :: past => cancelled past

/-- The ids that `Watch` has made. -/
def watcherIDs : List WatchAct → List String
  | [] => []
  | .watch watcherID _ :: past => watcherID :: watcherIDs past
  | _ :: past => watcherIDs past

/-- What starting the informer has come to.  Only the first `Watch` tries. -/
def informerStart : List WatchAct → Option (Except GoError Unit)
  | [] => none
  | .watch _ startInformer :: past => some ((informerStart past).getD startInformer)
  | _ :: past => informerStart past

/-- The first `Watch` could not start the informer. -/
def StartFailed (past : List WatchAct) : Prop := ∃ err, informerStart past = some (.error err)

/-- No `Close` or broadcast once starting the informer has failed, and no cancellation of
a watcher that a `Close` has met. -/
def WatchAct.Timely (past : List WatchAct) : WatchAct → Prop
  | .cancel eventCh => openedAtClose past ≤ eventCh ∨ eventCh ∈ cancelled past
  | .close _ => ¬StartFailed past
  | .broadcastEvent _ _ => ¬StartFailed past
  | .watch _ _ => True
  | .receive _ => True

/-- Every act comes at a time when it may. -/
def Careful : List WatchAct → List WatchAct → Prop
  | _, [] => True
  | past, act :: rest => act.Timely past ∧ Careful (act :: past) rest

theorem openedAtClose_le (past : List WatchAct) : openedAtClose past ≤ opened past := by
  induction past with
  | nil => exact Nat.le_refl 0
  | cons act past ih =>
    cases act with
    | watch => exact Nat.le_succ_of_le ih
    | close => exact Nat.le_refl _
    | cancel => exact ih
    | broadcastEvent => exact ih
    | receive => exact ih

theorem mem_cancelled_of_cons {past : List WatchAct} {eventCh : Nat}
    (member : ch ∈ cancelled (.cancel eventCh :: past)) :
    ch = eventCh ∧ eventCh < opened past ∨ ch ∈ cancelled past := by
  simp only [cancelled] at member
  split at member
  next was => exact (List.mem_cons.mp member).imp_left fun same => ⟨same, was⟩
  · exact .inr member

theorem mem_cancelled_cons {past : List WatchAct} (member : ch ∈ cancelled past) (eventCh : Nat) :
    ch ∈ cancelled (.cancel eventCh :: past) := by
  simp only [cancelled]
  split
  · exact .tail _ member
  · exact member

theorem lt_opened_of_mem_cancelled {past : List WatchAct} (member : ch ∈ cancelled past) :
    ch < opened past := by
  induction past with
  | nil => cases member
  | cons act past ih =>
    cases act with
    | watch => exact Nat.lt_succ_of_lt (ih member)
    | close => exact ih member
    | cancel eventCh =>
      obtain ⟨rfl, was⟩ | member := mem_cancelled_of_cons member
      · exact was
      · exact ih member
    | broadcastEvent => exact ih member
    | receive => exact ih member

theorem informerStart_eq_none {past : List WatchAct} :
    informerStart past = none ↔ opened past = 0 := by
  induction past with
  | nil => exact ⟨fun _ => rfl, fun _ => rfl⟩
  | cons act past ih =>
    cases act with
    | watch => exact ⟨nofun, nofun⟩
    | close => exact ih
    | cancel => exact ih
    | broadcastEvent => exact ih
    | receive => exact ih

/-- Only the first `Watch` decides whether starting the informer has failed. -/
theorem startFailed_watch {past : List WatchAct} :
    StartFailed (.watch watcherID startInformer :: past) ↔
      StartFailed past ∨ opened past = 0 ∧ ∃ err, startInformer = .error err := by
  rw [← informerStart_eq_none]
  have start : informerStart (.watch watcherID startInformer :: past) =
      some ((informerStart past).getD startInformer) := rfl
  unfold StartFailed
  rw [start]
  cases informerStart past <;> simp

variable {act : WatchAct}

namespace WatchState

variable {past : List WatchAct} {state after : WatchState}

/-! ### The registry and the goroutines -/

/-- Channels are made before they are used, belong to one watcher each, and the goroutine
of a watcher knows its id. -/
structure WellKept (state : WatchState) : Prop where
  fresh : ∀ ch, state.made ≤ ch → state.Open ch
  listed : ∀ watcher ∈ state.watchers.rows, watcher.2 < state.made
  unshared : ∀ first ∈ state.watchers.rows, ∀ second ∈ state.watchers.rows,
    first.2 = second.2 → first = second
  awaited : ∀ cleanup ∈ state.cleanups, cleanup.eventCh < state.made
  owned : ∀ watcher ∈ state.watchers.rows, ∀ cleanup ∈ state.cleanups,
    watcher.2 = cleanup.eventCh → watcher.1 = cleanup.watcherID

section

variable (kept : WellKept state)
include kept

/-- Watchers and goroutines may go, and channels that were made may be closed. -/
theorem WellKept.of_subset (made : after.made = state.made)
    (watchers : ∀ watcher ∈ after.watchers.rows, watcher ∈ state.watchers.rows)
    (cleanups : ∀ cleanup ∈ after.cleanups, cleanup ∈ state.cleanups)
    (opens : ∀ ch, state.made ≤ ch → state.Open ch → after.Open ch) : WellKept after where
  fresh ch unmade := by
    rw [made] at unmade
    exact opens ch unmade (kept.fresh ch unmade)
  listed watcher member := by
    rw [made]
    exact kept.listed watcher (watchers watcher member)
  unshared first firstMember second secondMember same :=
    kept.unshared first (watchers first firstMember) second (watchers second secondMember) same
  awaited cleanup member := by
    rw [made]
    exact kept.awaited cleanup (cleanups cleanup member)
  owned watcher member cleanup waiting same :=
    kept.owned watcher (watchers watcher member) cleanup (cleanups cleanup waiting) same

theorem WellKept.register (watcherID : String) :
    WellKept (state.register watcherID) where
  fresh ch unmade := kept.fresh ch (Nat.le_of_succ_le unmade)
  listed watcher member := by
    obtain rfl | ⟨member, -⟩ := Table.mem_put.mp member
    · exact Nat.lt_succ_self _
    · exact Nat.lt_succ_of_lt (kept.listed watcher member)
  unshared first firstMember second secondMember same := by
    -- A new watcher has a channel that no other one has.
    obtain rfl | ⟨firstMember, -⟩ := Table.mem_put.mp firstMember <;>
      obtain rfl | ⟨secondMember, -⟩ := Table.mem_put.mp secondMember
    · rfl
    · exact absurd same.symm (kept.listed second secondMember).ne
    · exact absurd same (kept.listed first firstMember).ne
    · exact kept.unshared first firstMember second secondMember same
  awaited cleanup waiting := Nat.lt_succ_of_lt (kept.awaited cleanup waiting)
  owned watcher member cleanup waiting same := by
    obtain rfl | ⟨member, -⟩ := Table.mem_put.mp member
    · exact absurd same.symm (kept.awaited cleanup waiting).ne
    · exact kept.owned watcher member cleanup waiting same

theorem WellKept.track (watcherID : String) : WellKept (state.track watcherID) := by
  have registered := kept.register watcherID
  refine ⟨registered.fresh, registered.listed, registered.unshared, ?_, ?_⟩
  · intro cleanup waiting
    obtain rfl | waiting := List.mem_cons.mp waiting
    · exact Nat.lt_succ_self _
    · exact registered.awaited cleanup waiting
  · intro watcher member cleanup waiting same
    obtain rfl | waiting := List.mem_cons.mp waiting
    · obtain rfl | ⟨member, -⟩ := Table.mem_put.mp member
      · rfl
      · exact absurd same (kept.listed watcher member).ne
    · exact registered.owned watcher member cleanup waiting same

/-- Closing a channel that was made. -/
theorem WellKept.shut (made : ch < state.made) : WellKept (state.shut ch) :=
  kept.of_subset rfl (fun _ member => member) (fun _ waiting => waiting)
    fun _ unmade unused => open_shut.mpr ⟨(made.trans_le unmade).ne', unused⟩

theorem WellKept.forget (cleanup : Cleanup) : WellKept (state.forget cleanup) :=
  kept.of_subset rfl (fun _ member => (Table.mem_erase.mp member).1)
    (fun _ waiting => List.mem_of_mem_filter waiting) fun _ _ unused => unused

theorem WellKept.alike (alike : Alike state after) : WellKept after :=
  kept.of_subset alike.made (fun _ member => alike.watchers ▸ member)
    (fun _ waiting => alike.cleanups ▸ waiting) fun ch _ unused => (alike.opens ch).mpr unused

theorem WellKept.emptied (emptied : Emptied state after) : WellKept after := by
  refine kept.of_subset emptied.made (fun watcher member => ?_)
    (fun _ waiting => emptied.cleanups ▸ waiting) fun ch unmade unused => ?_
  · rw [emptied.watchers] at member
    cases member
  · refine (emptied.opens ch).mpr ⟨unused, fun watcher member => ?_⟩
    exact ((kept.listed watcher member).trans_le unmade).ne

end

/-! ### Careful sequences are safe -/

/-- What holds after any acts: the registry holds open channels unless starting the
informer has failed, and the goroutines wait for channels that are open unless a `Close`
has met them. -/
structure Tended (past : List WatchAct) (state : WatchState) : Prop where
  kept : WellKept state
  made : state.made = opened past
  informer : state.informer = none ↔ opened past = 0
  live : ¬StartFailed past → ∀ watcher ∈ state.watchers.rows, state.Open watcher.2
  waiting : ∀ cleanup ∈ state.cleanups, openedAtClose past ≤ cleanup.eventCh →
    state.Open cleanup.eventCh
  settled : ∀ cleanup ∈ state.cleanups, cleanup.eventCh ∉ cancelled past

theorem Tended.initial : Tended [] {} where
  kept := ⟨fun _ _ => rfl, nofun, nofun, nofun, nofun⟩
  made := rfl
  informer := ⟨fun _ => rfl, fun _ => rfl⟩
  live _ := nofun
  waiting := nofun
  settled := nofun

section

variable (tended : Tended past state)
include tended

theorem Tended.exists_step (timely : act.Timely past) : ∃ after, state.step act = .ok after := by
  cases act with
  | watch watcherID startInformer =>
    by_cases runs : state.informer = none → startInformer = .ok ()
    · exact ⟨_, step_watch_started runs⟩
    · obtain ⟨first, failing⟩ := Classical.not_imp.mp runs
      cases startInformer with
      | ok => exact absurd rfl failing
      | error err => exact ⟨_, step_watch_failed first (tended.kept.fresh _ le_rfl)⟩
  | cancel ch =>
    obtain ⟨-, same⟩ | ⟨cleanup, waiting, rfl, same⟩ := cancel_cases state ch
    · exact ⟨_, same⟩
    · obtain early | settled := timely
      · exact ⟨_, same.trans (close_of_open (tended.waiting cleanup waiting early))⟩
      · exact absurd settled (tended.settled cleanup waiting)
  | close order => exact exists_close tended.kept.unshared (tended.live timely)
  | broadcastEvent order event => exact exists_broadcast (tended.live timely)
  | receive ch => exact ⟨_, rfl⟩

theorem Tended.alike (alike : Alike state after) :
    Tended past after where
  kept := tended.kept.alike alike
  made := alike.made.trans tended.made
  informer := by
    rw [alike.informer]
    exact tended.informer
  live sound watcher member := by
    rw [alike.watchers] at member
    exact (alike.opens _).mpr (tended.live sound watcher member)
  waiting cleanup waits early := by
    rw [alike.cleanups] at waits
    exact (alike.opens _).mpr (tended.waiting cleanup waits early)
  settled cleanup waits := by
    rw [alike.cleanups] at waits
    exact tended.settled cleanup waits

theorem Tended.failed {err : GoError} (first : state.informer = none) :
    Tended (.watch watcherID (.error err) :: past)
      ((state.register watcherID).shut state.made) where
  kept := (tended.kept.register watcherID).shut (Nat.lt_succ_self _)
  made := congrArg (· + 1) tended.made
  informer := ⟨nofun, nofun⟩
  live sound := absurd (startFailed_watch.mpr (.inr ⟨tended.informer.mp first, err, rfl⟩)) sound
  waiting cleanup waits early := by
    refine open_shut.mpr ⟨?_, tended.waiting cleanup waits early⟩
    exact (tended.kept.awaited cleanup waits).ne
  settled := tended.settled

theorem Tended.track :
    Tended (.watch watcherID startInformer :: past) (state.track watcherID) where
  kept := tended.kept.track watcherID
  made := congrArg (· + 1) tended.made
  informer := ⟨nofun, nofun⟩
  live sound watcher member := by
    obtain rfl | ⟨member, -⟩ := Table.mem_put.mp member
    · exact tended.kept.fresh _ le_rfl
    · exact tended.live (fun failed => sound (startFailed_watch.mpr (.inl failed))) watcher member
  waiting cleanup waits early := by
    obtain rfl | waits := List.mem_cons.mp waits
    · exact tended.kept.fresh _ le_rfl
    · exact tended.waiting cleanup waits early
  settled cleanup waits gone := by
    obtain rfl | waits := List.mem_cons.mp waits
    · have before : state.made < opened past := lt_opened_of_mem_cancelled gone
      exact before.ne tended.made
    · exact tended.settled cleanup waits gone

theorem Tended.cancelled (waits : cleanup ∈ state.cleanups) :
    Tended (.cancel cleanup.eventCh :: past) ((state.forget cleanup).shut cleanup.eventCh) where
  kept := (tended.kept.forget cleanup).shut (tended.kept.awaited cleanup waits)
  made := tended.made
  informer := tended.informer
  live sound watcher member := by
    obtain ⟨member, other⟩ := Table.mem_erase.mp member
    -- A registered watcher with this channel would have the id that is gone.
    refine open_shut.mpr ⟨fun same => other ?_, tended.live sound watcher member⟩
    exact tended.kept.owned watcher member cleanup waits same
  waiting other left early := by
    obtain ⟨left, differs⟩ := List.mem_filter.mp left
    exact open_shut.mpr ⟨of_decide_eq_true differs, tended.waiting other left early⟩
  settled other left gone := by
    obtain ⟨left, differs⟩ := List.mem_filter.mp left
    obtain ⟨same, -⟩ | gone := mem_cancelled_of_cons gone
    · exact of_decide_eq_true differs same
    · exact tended.settled other left gone

theorem Tended.ignored (nobody : ∀ cleanup ∈ state.cleanups, cleanup.eventCh ≠ ch) :
    Tended (.cancel ch :: past) state where
  kept := tended.kept
  made := tended.made
  informer := tended.informer
  live := tended.live
  waiting := tended.waiting
  settled cleanup waits gone := by
    obtain ⟨same, -⟩ | gone := mem_cancelled_of_cons gone
    · exact nobody cleanup waits same
    · exact tended.settled cleanup waits gone

theorem Tended.closed {order : IterOrder} (emptied : Emptied state after) :
    Tended (.close order :: past) after where
  kept := tended.kept.emptied emptied
  made := emptied.made.trans tended.made
  informer := by
    rw [emptied.informer]
    exact tended.informer
  live _ watcher member := by
    rw [emptied.watchers] at member
    cases member
  waiting cleanup waits early := by
    rw [emptied.cleanups] at waits
    have before := tended.kept.awaited cleanup waits
    rw [tended.made] at before
    exact absurd before early.not_gt
  settled cleanup waits := by
    rw [emptied.cleanups] at waits
    exact tended.settled cleanup waits

theorem Tended.moves (moved : Moves state act after) : Tended (act :: past) after := by
  cases moved with
  | failed first => exact tended.failed first
  | started runs => exact tended.track
  | ignored nobody => exact tended.ignored nobody
  | cancelled waits unused => exact tended.cancelled waits
  | closed live emptied => exact tended.closed emptied
  | sent live alike =>
    have later := tended.alike alike
    exact ⟨later.kept, later.made, later.informer, later.live, later.waiting, later.settled⟩
  | received alike =>
    have later := tended.alike alike
    exact ⟨later.kept, later.made, later.informer, later.live, later.waiting, later.settled⟩

theorem Tended.step (stepped : state.step act = .ok after) :
    Moves state act after ∧ Tended (act :: past) after := by
  have moved := moves_of_step (tended.kept.fresh _ le_rfl) stepped
  exact ⟨moved, tended.moves moved⟩

end

/-- A careful sequence runs to its end. -/
theorem Tended.exists_run {acts : List WatchAct} (tended : Tended past state)
    (careful : Careful past acts) : ∃ final, acts.foldlM WatchState.step state = .ok final := by
  induction acts generalizing past state with
  | nil => exact ⟨state, rfl⟩
  | cons act rest ih =>
    obtain ⟨after, stepped⟩ := tended.exists_step careful.1
    obtain ⟨final, ran⟩ := ih (tended.step stepped).2 careful.2
    refine ⟨final, ?_⟩
    rw [List.foldlM_cons, stepped]
    exact ran

/-! ### Only careful sequences are safe -/

/-- What holds besides as long as no id is made twice: every watcher that was not cancelled
has its goroutine, its channel is in the registry or closed, and a watcher whose informer
could not be started stays in the registry. -/
structure Apart (past : List WatchAct) (state : WatchState) : Prop where
  known : ∀ watcher ∈ state.watchers.rows, watcher.1 ∈ watcherIDs past
  named : ∀ cleanup ∈ state.cleanups, cleanup.watcherID ∈ watcherIDs past
  single : ∀ first ∈ state.cleanups, ∀ second ∈ state.cleanups,
    first.watcherID = second.watcherID → first.eventCh = second.eventCh
  registered : ∀ cleanup ∈ state.cleanups, openedAtClose past ≤ cleanup.eventCh →
    (cleanup.watcherID, cleanup.eventCh) ∈ state.watchers.rows
  pending : ¬StartFailed past → ∀ ch < opened past, ch ∉ cancelled past →
    ∃ cleanup ∈ state.cleanups, cleanup.eventCh = ch
  met : ∀ ch < openedAtClose past, ch ∉ cancelled past → ¬state.Open ch
  stuck : StartFailed past → openedAtClose past = 0 ∧
    ∃ watcher ∈ state.watchers.rows, ¬state.Open watcher.2 ∧
      ∀ cleanup ∈ state.cleanups, cleanup.watcherID ≠ watcher.1

theorem Apart.initial : Apart [] {} where
  known := nofun
  named := nofun
  single := nofun
  registered := nofun
  pending _ := nofun
  met := nofun
  stuck failed := by
    obtain ⟨err, same⟩ := failed
    cases same

theorem Apart.watcherID_ne (apart : Apart past state) (waits : cleanup ∈ state.cleanups)
    (new : watcherID ∉ watcherIDs past) : cleanup.watcherID ≠ watcherID := by
  rintro rfl
  exact new (apart.named cleanup waits)

/-- If the registered channels are open, starting the informer has not failed. -/
theorem Apart.not_startFailed (apart : Apart past state)
    (live : ∀ watcher ∈ state.watchers.rows, state.Open watcher.2) : ¬StartFailed past := by
  intro failed
  obtain ⟨-, watcher, member, shut, -⟩ := apart.stuck failed
  exact shut (live watcher member)

/-- An act that does not panic comes at a time when it may. -/
theorem Apart.timely (apart : Apart past state) (moved : Moves state act after) :
    act.Timely past := by
  cases moved with
  | failed first => trivial
  | started runs => trivial
  | @ignored ch nobody =>
    by_contra late
    obtain ⟨early, uncancelled⟩ := not_or.mp late
    have before : ch < openedAtClose past := Nat.lt_of_not_le early
    have sound : ¬StartFailed past := by
      intro failed
      rw [(apart.stuck failed).1] at before
      exact Nat.not_lt_zero ch before
    obtain ⟨cleanup, waits, same⟩ :=
      apart.pending sound ch (before.trans_le (openedAtClose_le past)) uncancelled
    exact nobody cleanup waits same
  | @cancelled cleanup waits unused =>
    by_contra late
    obtain ⟨early, uncancelled⟩ := not_or.mp late
    exact apart.met cleanup.eventCh (Nat.lt_of_not_le early) uncancelled unused
  | closed live emptied => exact apart.not_startFailed live
  | sent live alike => exact apart.not_startFailed live
  | received alike => trivial

theorem Apart.alike (apart : Apart past state) (alike : Alike state after) : Apart past after := by
  obtain ⟨known, named, single, registered, pending, met, stuck⟩ := apart
  obtain ⟨-, watchers, -, cleanups, opens⟩ := alike
  constructor <;> simp only [watchers, cleanups, opens] <;> assumption

theorem Apart.failed {err : GoError} (tended : Tended past state) (apart : Apart past state)
    (first : state.informer = none) (new : watcherID ∉ watcherIDs past) :
    Apart (.watch watcherID (.error err) :: past) ((state.register watcherID).shut state.made) where
  known watcher member := by
    obtain rfl | ⟨member, -⟩ := Table.mem_put.mp member
    · exact .head _
    · exact .tail _ (apart.known watcher member)
  named cleanup waits := .tail _ (apart.named cleanup waits)
  single := apart.single
  registered cleanup waits early := by
    refine Table.mem_put.mpr (.inr ⟨apart.registered cleanup waits early, ?_⟩)
    exact apart.watcherID_ne waits new
  pending sound := absurd (startFailed_watch.mpr (.inr ⟨tended.informer.mp first, err, rfl⟩)) sound
  met ch before uncancelled unused := apart.met ch before uncancelled (open_shut.mp unused).2
  stuck _ := by
    have closedEarly : openedAtClose past = 0 := by
      have bound := openedAtClose_le past
      rw [tended.informer.mp first] at bound
      exact Nat.le_zero.mp bound
    refine ⟨closedEarly, (watcherID, state.made), ?_, ?_, ?_⟩
    · exact Table.mem_put.mpr (.inl rfl)
    · exact fun unused => (open_shut.mp unused).1 rfl
    · exact fun cleanup waits => apart.watcherID_ne waits new

theorem Apart.track (tended : Tended past state) (apart : Apart past state)
    (runs : state.informer = none → startInformer = .ok ()) (new : watcherID ∉ watcherIDs past) :
    Apart (.watch watcherID startInformer :: past) (state.track watcherID) where
  known watcher member := by
    obtain rfl | ⟨member, -⟩ := Table.mem_put.mp member
    · exact .head _
    · exact .tail _ (apart.known watcher member)
  named cleanup waits := by
    obtain rfl | waits := List.mem_cons.mp waits
    · exact .head _
    · exact .tail _ (apart.named cleanup waits)
  single first firstWaits second secondWaits same := by
    obtain rfl | firstWaits := List.mem_cons.mp firstWaits <;>
      obtain rfl | secondWaits := List.mem_cons.mp secondWaits
    · rfl
    · exact absurd same.symm (apart.watcherID_ne secondWaits new)
    · exact absurd same (apart.watcherID_ne firstWaits new)
    · exact apart.single first firstWaits second secondWaits same
  registered cleanup waits early := by
    obtain rfl | waits := List.mem_cons.mp waits
    · exact Table.mem_put.mpr (.inl rfl)
    · refine Table.mem_put.mpr (.inr ⟨apart.registered cleanup waits early, ?_⟩)
      exact apart.watcherID_ne waits new
  pending sound ch before uncancelled := by
    obtain earlier | rfl := Nat.lt_succ_iff_lt_or_eq.mp before
    · obtain ⟨cleanup, waits, same⟩ := apart.pending
        (fun failed => sound (startFailed_watch.mpr (.inl failed))) ch earlier uncancelled
      exact ⟨cleanup, .tail _ waits, same⟩
    · exact ⟨_, .head _, tended.made⟩
  met := apart.met
  stuck failed := by
    obtain failed | ⟨unopened, err, failing⟩ := startFailed_watch.mp failed
    · obtain ⟨never, watcher, member, shut, unwaited⟩ := apart.stuck failed
      have other : watcher.1 ≠ watcherID := fun same => new (same ▸ apart.known watcher member)
      refine ⟨never, watcher, Table.mem_put.mpr (.inr ⟨member, other⟩), shut, ?_⟩
      intro cleanup waits
      obtain rfl | waits := List.mem_cons.mp waits
      · exact other.symm
      · exact unwaited cleanup waits
    · have started := runs (tended.informer.mpr unopened)
      rw [failing] at started
      cases started

theorem Apart.cancelled (tended : Tended past state) (apart : Apart past state)
    (waits : cleanup ∈ state.cleanups) :
    Apart (.cancel cleanup.eventCh :: past) ((state.forget cleanup).shut cleanup.eventCh) := by
  have was : cleanup.eventCh < opened past := by
    rw [← tended.made]
    exact tended.kept.awaited cleanup waits
  have gone : Config.cancelled (.cancel cleanup.eventCh :: past) =
      cleanup.eventCh :: Config.cancelled past := if_pos was
  refine ⟨?_, ?_, ?_, ?_, ?_, ?_, ?_⟩
  · exact fun watcher member => apart.known watcher (Table.mem_erase.mp member).1
  · exact fun other left => apart.named other (List.mem_of_mem_filter left)
  · exact fun first firstLeft second secondLeft => apart.single first
      (List.mem_of_mem_filter firstLeft) second (List.mem_of_mem_filter secondLeft)
  · intro other left early
    obtain ⟨left, differs⟩ := List.mem_filter.mp left
    refine Table.mem_erase.mpr ⟨apart.registered other left early, fun same => ?_⟩
    exact of_decide_eq_true differs (apart.single other left cleanup waits same)
  · intro sound ch before uncancelled
    rw [gone] at uncancelled
    obtain ⟨differs, uncancelled⟩ := not_or.mp (mt List.mem_cons.mpr uncancelled)
    obtain ⟨other, left, same⟩ := apart.pending sound ch before uncancelled
    refine ⟨other, List.mem_filter.mpr ⟨left, decide_eq_true ?_⟩, same⟩
    exact fun equal => differs (same.symm.trans equal)
  · intro ch before uncancelled unused
    rw [gone] at uncancelled
    exact apart.met ch before (mt (.tail _) uncancelled) (open_shut.mp unused).2
  · intro failed
    obtain ⟨never, watcher, member, shut, unwaited⟩ := apart.stuck failed
    refine ⟨never, watcher, ?_, fun unused => shut (open_shut.mp unused).2, ?_⟩
    · exact Table.mem_erase.mpr ⟨member, (unwaited cleanup waits).symm⟩
    · exact fun other left => unwaited other (List.mem_of_mem_filter left)

theorem Apart.ignored (apart : Apart past state) : Apart (.cancel ch :: past) state := by
  have fewer : ∀ other, other ∉ Config.cancelled (.cancel ch :: past) →
      other ∉ Config.cancelled past :=
    fun other uncancelled gone => uncancelled (mem_cancelled_cons gone ch)
  exact ⟨apart.known, apart.named, apart.single, apart.registered,
    fun sound other before uncancelled =>
      apart.pending sound other before (fewer other uncancelled),
    fun other before uncancelled => apart.met other before (fewer other uncancelled),
    apart.stuck⟩

theorem Apart.closed {order : IterOrder} (tended : Tended past state) (apart : Apart past state)
    (live : ∀ watcher ∈ state.watchers.rows, state.Open watcher.2) (emptied : Emptied state after) :
    Apart (.close order :: past) after := by
  have sound := apart.not_startFailed live
  refine ⟨?_, ?_, ?_, ?_, ?_, ?_, ?_⟩
  · intro watcher member
    rw [emptied.watchers] at member
    cases member
  · rw [emptied.cleanups]
    exact apart.named
  · rw [emptied.cleanups]
    exact apart.single
  · intro cleanup waits early
    rw [emptied.cleanups] at waits
    have before := tended.kept.awaited cleanup waits
    rw [tended.made] at before
    exact absurd before early.not_gt
  · rw [emptied.cleanups]
    exact apart.pending
  · intro ch before uncancelled unused
    obtain ⟨unused, unlisted⟩ := (emptied.opens ch).mp unused
    obtain ⟨cleanup, waits, rfl⟩ := apart.pending sound ch before uncancelled
    -- The channel was in the registry, unless an earlier `Close` had met it.
    by_cases early : openedAtClose past ≤ cleanup.eventCh
    · exact unlisted _ (apart.registered cleanup waits early) rfl
    · exact apart.met _ (Nat.lt_of_not_le early) uncancelled unused
  · exact fun failed => absurd failed sound

theorem Apart.moves {past rest : List WatchAct} {state after : WatchState}
    (tended : Tended past state) (apart : Apart past state) (moved : Moves state act after)
    (distinct : (watcherIDs (act :: rest) ++ watcherIDs past).Nodup) :
    Apart (act :: past) after := by
  cases moved with
  | failed first =>
    refine apart.failed tended first fun member => ?_
    exact (List.nodup_cons.mp distinct).1 (List.mem_append_right _ member)
  | started runs =>
    refine apart.track tended runs fun member => ?_
    exact (List.nodup_cons.mp distinct).1 (List.mem_append_right _ member)
  | ignored nobody => exact apart.ignored
  | cancelled waits unused => exact apart.cancelled tended waits
  | closed live emptied => exact apart.closed tended live emptied
  | sent live alike =>
    obtain ⟨known, named, single, registered, pending, met, stuck⟩ := apart.alike alike
    exact ⟨known, named, single, registered, pending, met, stuck⟩
  | received alike =>
    obtain ⟨known, named, single, registered, pending, met, stuck⟩ := apart.alike alike
    exact ⟨known, named, single, registered, pending, met, stuck⟩

theorem nodup_watcherIDs_cons {past rest : List WatchAct}
    (distinct : (watcherIDs (act :: rest) ++ watcherIDs past).Nodup) :
    (watcherIDs rest ++ watcherIDs (act :: past)).Nodup := by
  cases act with
  | watch watcherID startInformer => exact List.perm_middle.nodup_iff.mpr distinct
  | cancel => exact distinct
  | close => exact distinct
  | broadcastEvent => exact distinct
  | receive => exact distinct

/-- A sequence that runs to its end without making an id twice is careful. -/
theorem Apart.careful {past acts : List WatchAct} {state final : WatchState}
    (tended : Tended past state) (apart : Apart past state)
    (distinct : (watcherIDs acts ++ watcherIDs past).Nodup)
    (ran : acts.foldlM WatchState.step state = .ok final) : Careful past acts := by
  induction acts generalizing past state with
  | nil => trivial
  | cons act rest ih =>
    rw [List.foldlM_cons] at ran
    cases stepped : state.step act with
    | error fault =>
      rw [stepped] at ran
      cases ran
    | ok after =>
      rw [stepped] at ran
      obtain ⟨moved, later⟩ := tended.step stepped
      refine ⟨apart.timely moved, ?_⟩
      exact ih later (apart.moves tended moved distinct)
        (nodup_watcherIDs_cons distinct) ran

end WatchState

/-- Every careful sequence of acts runs without closing a channel twice or sending on a
closed one; and if no two watchers are given one id, no other sequence does. -/
theorem watchers_safe_iff_careful (acts : List WatchAct) :
    (Careful [] acts → ∃ final, WatchState.run acts = .ok final) ∧
      ((watcherIDs acts).Nodup → (∃ final, WatchState.run acts = .ok final) → Careful [] acts) := by
  refine ⟨WatchState.Tended.initial.exists_run, ?_⟩
  rintro distinct ⟨final, ran⟩
  rw [← List.append_nil (watcherIDs acts)] at distinct
  exact WatchState.Apart.initial.careful .initial distinct ran

/-- Two watchers, one cancelled before the `Close` and one opened after it. -/
def tidyActs : List WatchAct :=
  [.watch "watcher-1" (.ok ()), .broadcastEvent .entryOrder { type := .modified },
    .receive 0, .cancel 0, .close .entryOrder, .watch "watcher-2" (.ok ()), .cancel 1]

theorem careful_tidyActs : Careful [] tidyActs := by
  have sound : ∀ past, informerStart past = some (.ok ()) → ¬StartFailed past := by
    rintro past started ⟨err, failing⟩
    rw [started] at failing
    cases failing
  exact ⟨trivial, sound _ rfl, trivial, .inl (by decide), sound _ rfl, trivial,
    .inl (by decide), trivial⟩

theorem watchers_safe_tidyActs :
    (∃ final, WatchState.run tidyActs = .ok final) ∧ Careful [] tidyActs := by
  obtain ⟨safe, only⟩ := watchers_safe_iff_careful tidyActs
  have ran := safe careful_tidyActs
  exact ⟨ran, only (by decide) ran⟩

/-- A watcher that is cancelled after a `Close` closes its channel again; after a failed
start of the informer the next broadcast sends on a closed channel, and the next `Close`
closes it again. -/
theorem watchers_panic :
    WatchState.run [.watch "watcher-1" (.ok ()), .close .entryOrder, .cancel 0] =
        .error .closeOfClosedChannel ∧
      WatchState.run [.watch "watcher-1" (.error { text := "timed out waiting for cache sync" }),
        .broadcastEvent .entryOrder { type := .modified }] = .error .sendOnClosedChannel ∧
      WatchState.run [.watch "watcher-1" (.error { text := "timed out waiting for cache sync" }),
        .close .entryOrder] = .error .closeOfClosedChannel :=
  ⟨rfl, rfl, rfl⟩

end ScoreOrchestrator.Config
