/-
Module: Foundation.Concurrency
Purpose: Several client programs interleaved call by call over one shared
  state, and the rely/guarantee rule for their reachable states.
Main exports: System, System.Reachable, System.Verified, System.Verified.holds_of_reachable
-/
import Mathlib.Logic.Function.Basic
import ScoreOrchestrator.Foundation.Program

namespace ScoreOrchestrator.Foundation

/-- A program under way, with its own events so far (newest first). -/
structure Thread (Call : Type → Type) (Fault State : Type) : Type 1 where
  history : List (Event Call Fault State)
  program : Program Call Fault Unit

/-- The shared state and, for each role, the program it is executing. -/
structure System (Role : Type) (Call : Type → Type) (Fault State : Type) : Type 1 where
  state : State
  thread : Role → Option (Thread Call Fault State)

/-- The rules of an interleaving: what each role may start, the service that
answers it, which of its exchanges are considered, and what happens to the state
besides. -/
structure Rules (Role : Type) (Call : Type → Type) (Fault State : Type) : Type 1 where
  service : Role → Service Call Fault State
  starts : Role → Program Call Fault Unit → Prop
  admits : Role → List (Event Call Fault State) → Event Call Fault State → Prop
  environment : State → State → Prop

namespace System

variable {Role : Type} [DecidableEq Role] {Call : Type → Type}
  {Fault State : Type}

/-- What a step did. -/
inductive Label (Role : Type) (Call : Type → Type) (Fault State : Type) : Type 1 where
  | environment
  | start (role : Role)
  | exchange (role : Role) (history : List (Event Call Fault State))
      (event : Event Call Fault State)
  | stop (role : Role)

/-- One step of the interleaving.  A role runs one program at a time; a program
may be abandoned between any two calls. -/
inductive Step (rules : Rules Role Call Fault State) :
    System Role Call Fault State → Label Role Call Fault State →
      System Role Call Fault State → Prop where
  | environment {system : System Role Call Fault State} {after : State}
      (moved : rules.environment system.state after) :
      Step rules system .environment { system with state := after }
  | start {system : System Role Call Fault State} {role : Role}
      {program : Program Call Fault Unit}
      (idle : system.thread role = none) (allowed : rules.starts role program) :
      Step rules system (.start role)
        { system with
          thread := Function.update system.thread role (some ⟨[], program⟩) }
  | exchange {system : System Role Call Fault State} {role : Role}
      {history : List (Event Call Fault State)} {answer : Type}
      {request : Call answer}
      {next : Except Fault answer → Program Call Fault Unit}
      {reply : Except Fault answer} {after : State}
      (busy : system.thread role = some ⟨history, .call request next⟩)
      (served : rules.service role request system.state reply after)
      (admitted : rules.admits role history
        { request, reply, before := system.state, after }) :
      Step rules system
        (.exchange role history { request, reply, before := system.state, after })
        { state := after
          thread := Function.update system.thread role
            (some ⟨{ request, reply, before := system.state, after } :: history,
              next reply⟩) }
  | stop {system : System Role Call Fault State} {role : Role} :
      Step rules system (.stop role)
        { system with thread := Function.update system.thread role none }

/-- The systems reachable from an initial state with every role idle. -/
inductive Reachable (rules : Rules Role Call Fault State)
    (initial : State → Prop) : System Role Call Fault State → Prop where
  | initial {state : State} (holds : initial state) :
      Reachable rules initial { state, thread := fun _ => none }
  | step {system next : System Role Call Fault State}
      {label : Label Role Call Fault State}
      (reached : Reachable rules initial system)
      (moved : Step rules system label next) :
      Reachable rules initial next

/-- Every event of a run is considered, given the events before it. -/
def Rules.Admitted (rules : Rules Role Call Fault State) (role : Role) :
    List (Event Call Fault State) → List (Event Call Fault State) → Prop
  | _, [] => True
  | history, event :: events =>
    rules.admits role history event ∧
      Rules.Admitted rules role (event :: history) events

omit [DecidableEq Role] in
/-- Whether a run is considered, when that does not depend on what came before. -/
theorem Rules.Admitted.of_mem {rules : Rules Role Call Fault State} {role : Role}
    {events : List (Event Call Fault State)}
    (each : ∀ event ∈ events, ∀ history, rules.admits role history event)
    (history : List (Event Call Fault State)) : Rules.Admitted rules role history events := by
  induction events generalizing history with
  | nil => trivial
  | cons event rest ih =>
    exact ⟨each event (.head _) history,
      ih (fun other later => each other (.tail _ later)) _⟩

omit [DecidableEq Role] in
/-- A role whose every exchange is considered has every run considered. -/
theorem Rules.Admitted.of_forall {rules : Rules Role Call Fault State} {role : Role}
    (always : ∀ history event, rules.admits role history event)
    (history events : List (Event Call Fault State)) : Rules.Admitted rules role history events :=
  .of_mem (fun event _ history => always history event) history

instance decidableAdmitted (rules : Rules Role Call Fault State) (role : Role)
    [∀ history event, Decidable (rules.admits role history event)] :
    ∀ history events, Decidable (Rules.Admitted rules role history events)
  | _, [] => .isTrue trivial
  | history, event :: events =>
    have := decidableAdmitted rules role (event :: history) events
    inferInstanceAs (Decidable (_ ∧ _))

/-- A program under way may run on undisturbed. -/
theorem Reachable.continue {rules : Rules Role Call Fault State} {initial : State → Prop}
    {system : System Role Call Fault State} {role : Role}
    {history events : List (Event Call Fault State)} {program : Program Call Fault Unit}
    {outcome : Outcome Unit} {final : State} (reached : Reachable rules initial system)
    (busy : system.thread role = some ⟨history, program⟩)
    (run : program.Runs (rules.service role) system.state events outcome final)
    (admitted : Rules.Admitted rules role history events) :
    Reachable rules initial
      { state := final, thread := Function.update system.thread role none } := by
  generalize started : system.state = state at run
  induction run generalizing system history with
  | done | crash | interrupted =>
    subst started
    exact .step reached .stop
  | call served rest ih =>
    subst started
    have moved := Reachable.step reached (.exchange busy served admitted.1)
    have onward := ih moved (by simp) admitted.2 rfl
    simpa using onward

/-- An idle role may run a whole program undisturbed. -/
theorem Reachable.run {rules : Rules Role Call Fault State} {initial : State → Prop}
    {system : System Role Call Fault State} (role : Role) {events : List (Event Call Fault State)}
    {program : Program Call Fault Unit} {outcome : Outcome Unit} {final : State}
    (reached : Reachable rules initial system) (idle : system.thread role = none)
    (allowed : rules.starts role program)
    (run : program.Runs (rules.service role) system.state events outcome final)
    (admitted : Rules.Admitted rules role [] events) :
    Reachable rules initial { system with state := final } := by
  have started := Reachable.step reached (.start idle allowed)
  have finished := started.continue (by simp) run admitted
  have same : Function.update system.thread role none = system.thread := by
    rw [← idle, Function.update_eq_self]
  simpa [same] using finished

/-- Every event of a run that a program under way may take is a step of some
reachable system. -/
theorem Reachable.exists_exchange {rules : Rules Role Call Fault State} {initial : State → Prop}
    {system : System Role Call Fault State} {role : Role}
    {history early late : List (Event Call Fault State)} {event : Event Call Fault State}
    {program : Program Call Fault Unit} {outcome : Outcome Unit} {final : State}
    (reached : Reachable rules initial system) (busy : system.thread role = some ⟨history, program⟩)
    (run : program.Runs (rules.service role) system.state (early ++ event :: late) outcome final)
    (admitted : Rules.Admitted rules role history (early ++ event :: late)) :
    ∃ before after, Reachable rules initial before ∧
      Step rules before (.exchange role (early.reverse ++ history) event) after := by
  induction early generalizing system history program with
  | nil =>
    cases run with
    | call served rest => exact ⟨system, _, reached, .exchange busy served admitted.1⟩
  | cons first rest ih =>
    cases run with
    | call served remainder =>
      have moved := Reachable.step reached (.exchange busy served admitted.1)
      obtain ⟨before, after, there, step⟩ := ih moved (by simp) remainder admitted.2
      refine ⟨before, after, there, ?_⟩
      rw [List.reverse_cons, List.append_assoc]
      exact step

section

variable {rules : Rules Role Call Fault State} {initial : State → Prop}
  {system : System Role Call Fault State} (role : Role)
  {events : List (Event Call Fault State)} {program : Program Call Fault Unit}
  {outcome : Outcome Unit} {final : State}
  (reached : Reachable rules initial system) (idle : system.thread role = none)
  (allowed : rules.starts role program)
  (run : program.Runs (rules.service role) system.state events outcome final)
  (admitted : Rules.Admitted rules role [] events)

include reached idle allowed run admitted

/-- The same for a whole program of an idle role, by the place of the event in the
run. -/
theorem Reachable.exists_exchange_of_lt {index : Nat} (bound : index < events.length) :
    ∃ before after, Reachable rules initial before ∧
      Step rules before (.exchange role (events.take index).reverse (events.get ⟨index, bound⟩))
        after := by
  have split : events =
      events.take index ++ events.get ⟨index, bound⟩ :: events.drop (index + 1) := by
    rw [List.get_eq_getElem, ← List.drop_eq_getElem_cons bound, List.take_append_drop]
  rw [split] at run admitted
  have started := Reachable.step reached (.start idle allowed)
  obtain ⟨before, after, there, step⟩ := started.exists_exchange
    (Function.update_self ..) run admitted
  rw [List.append_nil] at step
  exact ⟨before, after, there, step⟩

theorem Reachable.exists_exchange_of_mem {event : Event Call Fault State}
    (member : event ∈ events) :
    ∃ history before after, history ⊆ events ∧ Reachable rules initial before ∧
      Step rules before (.exchange role history event) after := by
  obtain ⟨⟨index, bound⟩, rfl⟩ := List.get_of_mem member
  obtain ⟨before, after, there, step⟩ :=
    Reachable.exists_exchange_of_lt role reached idle allowed run admitted bound
  refine ⟨_, before, after, ?_, there, step⟩
  intro past earlier
  exact List.mem_of_mem_take (List.mem_reverse.mp earlier)

end

/-- A rely/guarantee proof for a set of rules: an invariant of the state, and
for each role a contract that every program it may start meets.  What one role
promises, and what the environment does, every other role must tolerate. -/
structure Verified (rules : Rules Role Call Fault State) (initial : State → Prop) : Type 1 where
  invariant : State → Prop
  rely : Role → State → State → Prop
  rely_refl : ∀ role state, rely role state state
  rely_trans : ∀ role {first second third}, rely role first second →
    rely role second third → rely role first third
  guarantee : Role → List (Event Call Fault State) →
    Event Call Fault State → Prop
  invariant_initial : ∀ {state}, initial state → invariant state
  invariant_environment : ∀ {before after}, invariant before →
    rules.environment before after → invariant after
  invariant_exchange : ∀ {role history event}, invariant event.before →
    guarantee role history event → invariant event.after
  rely_environment : ∀ {role before after}, invariant before →
    rules.environment before after → rely role before after
  rely_exchange : ∀ {role other history event}, role ≠ other →
    invariant event.before → guarantee other history event →
    rely role event.before event.after
  safe : ∀ {role program state}, rules.starts role program →
    invariant state →
    Program.Safe
      { service := rules.service role, rely := rely role
        rely_refl := rely_refl role, rely_trans := rely_trans role
        admits := rules.admits role, guarantee := guarantee role }
      (fun _ _ _ => True) program [] state

namespace Verified

variable {rules : Rules Role Call Fault State} {initial : State → Prop}

/-- The contract of one role. -/
def contract (proof : Verified rules initial) (role : Role) : Contract Call Fault State :=
  { service := rules.service role, rely := proof.rely role
    rely_refl := proof.rely_refl role, rely_trans := proof.rely_trans role
    admits := rules.admits role, guarantee := proof.guarantee role }

/-- What holds of a whole system: the invariant, and that every program under
way still meets its contract. -/
structure Holds (proof : Verified rules initial)
    (system : System Role Call Fault State) : Prop where
  invariant : proof.invariant system.state
  safe : ∀ {role thread}, system.thread role = some thread →
    Program.Safe (proof.contract role) (fun _ _ _ => True) thread.program
      thread.history system.state

/-- One step keeps everything, and an exchange keeps its promise. -/
theorem Holds.step {proof : Verified rules initial} {system next : System Role Call Fault State}
    {label : Label Role Call Fault State} (holds : proof.Holds system)
    (moved : Step rules system label next) :
    proof.Holds next ∧
      ∀ role history event, label = .exchange role history event →
        proof.guarantee role history event := by
  cases moved with
  | environment moved =>
    refine ⟨⟨proof.invariant_environment holds.invariant moved, ?_⟩, by simp⟩
    intro role thread busy
    exact (holds.safe busy).stable
      (proof.rely_environment holds.invariant moved)
  | @start role program idle allowed =>
    refine ⟨⟨holds.invariant, ?_⟩, by simp⟩
    intro other thread busy
    by_cases same : other = role
    · subst same
      simp only [Function.update_self, Option.some.injEq] at busy
      subst busy
      exact proof.safe allowed holds.invariant
    · simp only [Function.update_of_ne same] at busy
      exact holds.safe busy
  | @exchange role history answer request next reply after busy served admitted =>
    have ⟨kept, rest⟩ := holds.safe busy _ (proof.rely_refl role _) reply after served admitted
    refine ⟨⟨proof.invariant_exchange holds.invariant kept, ?_⟩, ?_⟩
    · intro other thread running
      by_cases same : other = role
      · subst same
        simp only [Function.update_self, Option.some.injEq] at running
        subst running
        exact rest
      · simp only [Function.update_of_ne same] at running
        exact (holds.safe running).stable
          (proof.rely_exchange same holds.invariant kept)
    · intro other past event same
      cases same
      exact kept
  | @stop role =>
    refine ⟨⟨holds.invariant, ?_⟩, by simp⟩
    intro other thread busy
    by_cases same : other = role
    · subst same
      simp at busy
    · simp only [Function.update_of_ne same] at busy
      exact holds.safe busy

/-- The rely/guarantee rule: everything holds in every reachable system. -/
theorem holds_of_reachable (proof : Verified rules initial) {system : System Role Call Fault State}
    (reached : Reachable rules initial system) : proof.Holds system := by
  induction reached with
  | initial holds => exact ⟨proof.invariant_initial holds, by simp⟩
  | step _ moved ih => exact (ih.step moved).1

/-- Every exchange made in a reachable system keeps its promise. -/
theorem guarantee_of_reachable (proof : Verified rules initial)
    {system next : System Role Call Fault State} {role : Role}
    {history : List (Event Call Fault State)} {event : Event Call Fault State}
    (reached : Reachable rules initial system)
    (moved : Step rules system (.exchange role history event) next) :
    proof.guarantee role history event :=
  ((proof.holds_of_reachable reached).step moved).2 role history event rfl

end Verified

end System

export System (Reachable Verified)
export System.Rules (Admitted)

end ScoreOrchestrator.Foundation
