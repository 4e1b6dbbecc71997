/-
Module: Foundation.WorkQueue
Purpose: One key on the work queue of a controller, among arbitrary other changes of the
  state, and how to show that the controller misses nothing.
Main exports: WorkItem, WorkState.Reachable, Settling, Settling.settled_of_reachable
-/
import ScoreOrchestrator.Foundation.Program

namespace ScoreOrchestrator.Foundation

/-- What becomes of a key once it was worked on. -/
inductive Verdict where
  | forget
  | requeue
deriving DecidableEq, Repr

/-- A key of a controller: what may be run for it, which changes put it on the queue, and
which states do so when the controller starts.  The controller at work on other keys is
among the others. -/
structure WorkItem (Call : Type → Type) (Fault State : Type) where
  service : Service Call Fault State
  others : State → State → Prop
  own : ∀ {answer : Type} {request : Call answer} {reply : Except Fault answer}
    {before after : State}, service request before reply after → others before after
  programs : Program Call Fault Verdict → Prop
  wakes : State → State → Prop
  lists : State → Prop

/-- The state, whether the key is queued, and what is left to run for it. -/
structure WorkState (Call : Type → Type) (Fault State : Type) where
  state : State
  queued : Prop
  worker : Option (Program Call Fault Verdict)

variable {Call : Type → Type} {Fault State : Type} {item : WorkItem Call Fault State}

namespace WorkState

/-- One step.  A key is taken off the queue before it is worked on, and changes meanwhile
put it there again. -/
inductive Step (item : WorkItem Call Fault State) :
    WorkState Call Fault State → WorkState Call Fault State → Prop where
  | others {state after queued worker} (moved : item.others state after) :
      Step item ⟨state, queued, worker⟩ ⟨after, queued ∨ item.wakes state after, worker⟩
  | enqueue {state queued worker} : Step item ⟨state, queued, worker⟩ ⟨state, True, worker⟩
  | take {state queued program} (waits : queued) (allowed : item.programs program) :
      Step item ⟨state, queued, none⟩ ⟨state, False, some program⟩
  | call {state after queued answer next reply} {request : Call answer}
      (served : item.service request state reply after) :
      Step item ⟨state, queued, some (.call request next)⟩
        ⟨after, queued ∨ item.wakes state after, some (next reply)⟩
  | finish {state queued verdict} :
      Step item ⟨state, queued, some (.done verdict)⟩ ⟨state, queued ∨ verdict ≠ .forget, none⟩
  | restart {state queued worker} :
      Step item ⟨state, queued, worker⟩ ⟨state, item.lists state, none⟩

/-- What may come about after a start in some state. -/
inductive Reachable (item : WorkItem Call Fault State) (start : State) :
    WorkState Call Fault State → Prop where
  | start : Reachable item start ⟨start, item.lists start, none⟩
  | step {work next} (reached : Reachable item start work) (moved : Step item work next) :
      Reachable item start next

/-- A run without others at work, to its end. -/
theorem Reachable.finished {start state final : State} {queued : Prop} {verdict : Verdict}
    {program : Program Call Fault Verdict} {events : List (Event Call Fault State)}
    (run : program.Runs item.service state events (.returned verdict) final)
    (reached : Reachable item start ⟨state, queued, some program⟩) :
    Reachable item start ⟨final,
      (queued ∨ ∃ event ∈ events, item.wakes event.before event.after) ∨ verdict ≠ .forget,
      none⟩ := by
  generalize returns : Outcome.returned verdict = outcome at run
  induction run generalizing queued with
  | done value state =>
    cases returns
    simpa using reached.step .finish
  | crash => cases returns
  | interrupted => cases returns
  | call served _ ih => simpa [or_assoc] using ih (reached.step (.call served)) returns

/-- The key is not queued and nobody is at work on it. -/
def AtRest (work : WorkState Call Fault State) : Prop := ¬ work.queued ∧ work.worker = none

end WorkState

/-- Why a key stays settled: changes that do not put it on the queue are quiet, and quiet
changes leave it settled. -/
structure Settling (item : WorkItem Call Fault State) where
  settled : State → Prop
  quiet : State → State → Prop
  quiet_refl : ∀ state, quiet state state
  quiet_trans : ∀ {first second third}, quiet first second → quiet second third →
    quiet first third
  quiet_silent : ∀ {before after}, item.others before after → ¬ item.wakes before after →
    quiet before after
  stable : ∀ {before after}, quiet before after → settled before → settled after
  unlisted : ∀ {state}, ¬ item.lists state → settled state

namespace Settling

variable {settling : Settling item} {history : List (Event Call Fault State)} {state : State}
  {α : Type}

/-- The terms on which a program works on the key: it has to answer for those calls that do
not put the key on the queue again. -/
def contract (settling : Settling item) : Contract Call Fault State where
  service := item.service
  rely := settling.quiet
  rely_refl := settling.quiet_refl
  rely_trans := settling.quiet_trans
  admits _ event := ¬ item.wakes event.before event.after
  guarantee _ _ := True

/-- The program lets the key go only settled. -/
abbrev Settles (settling : Settling item) (verdict : α → Verdict) (program : Program Call Fault α)
    (history : List (Event Call Fault State)) (state : State) : Prop :=
  Program.Safe settling.contract
    (fun value _ state => verdict value = .forget → settling.settled state) program history state

theorem Settles.bind_verdict {verdict : α → Verdict} {program : Program Call Fault α}
    (settles : settling.Settles verdict program history state) :
    settling.Settles id (program.bind fun value => .done (verdict value)) history state := by
  apply Program.Safe.bind
  exact settles.mono fun _ _ _ holds _ quiet forgets => settling.stable quiet (holds forgets)

/-- Whatever a part of a program calls, the changes are quiet. -/
theorem safe_quiet (settling : Settling item) (program : Program Call Fault α) :
    Program.Safe settling.contract (fun _ _ later => settling.quiet state later) program history
      state :=
  Program.Safe.of_makes program.makes_true fun _ _ _ _ _ _ _ served silent =>
    ⟨trivial, settling.quiet_silent (item.own served) silent⟩

/-- A key that is not queued is settled, or its program is on the way there. -/
def Underway (settling : Settling item) (state : State) :
    Option (Program Call Fault Verdict) → Prop
  | none => settling.settled state
  | some program => ∃ history, settling.Settles id program history state

variable
  (settles : ∀ {program}, item.programs program → ∀ state, settling.Settles id program [] state)

include settles

/-- One step loses no change. -/
theorem underway_step {work next : WorkState Call Fault State}
    (holds : ¬ work.queued → settling.Underway work.state work.worker)
    (moved : WorkState.Step item work next) (rests : ¬ next.queued) :
    settling.Underway next.state next.worker := by
  cases moved with
  | @others _ _ _ worker moved =>
    obtain ⟨unqueued, silent⟩ := not_or.mp rests
    have quiet := settling.quiet_silent moved silent
    cases worker with
    | none => exact settling.stable quiet (holds unqueued)
    | some program =>
      obtain ⟨history, safe⟩ := holds unqueued
      exact ⟨history, Program.Safe.stable safe quiet⟩
  | enqueue => exact absurd trivial rests
  | take _ allowed => exact ⟨[], settles allowed _⟩
  | call served =>
    obtain ⟨unqueued, silent⟩ := not_or.mp rests
    obtain ⟨history, safe⟩ := holds unqueued
    exact ⟨_, (safe _ (settling.quiet_refl _) _ _ served silent).2⟩
  | finish =>
    obtain ⟨unqueued, forgets⟩ := not_or.mp rests
    obtain ⟨history, safe⟩ := holds unqueued
    exact safe _ (settling.quiet_refl _) (Decidable.not_not.mp forgets)
  | restart => exact settling.unlisted rests

/-- Whenever the controller rests, the key is settled. -/
theorem settled_of_reachable {start : State} {work : WorkState Call Fault State}
    (reached : WorkState.Reachable item start work) (rests : work.AtRest) :
    settling.settled work.state := by
  have holds : ¬ work.queued → settling.Underway work.state work.worker := by
    clear rests
    induction reached with
    | start => exact settling.unlisted
    | step _ moved ih => exact underway_step settles ih moved
  have underway := holds rests.1
  rw [rests.2] at underway
  exact underway

end Settling

end ScoreOrchestrator.Foundation
