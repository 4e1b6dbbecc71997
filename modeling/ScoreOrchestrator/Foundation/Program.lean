/-
Module: Foundation.Program
Purpose: Client programs that talk to a remote service one call at a time, the
  runs a service allows them, and the proof rules for those runs under
  interference from other clients.
Main exports: Program, Service, Program.Runs, Contract, Program.Safe, Program.Safe.sound
-/
import Mathlib.Logic.Relation

namespace ScoreOrchestrator.Foundation

/-!
A controller is a sequential program whose only effects are calls to a shared
service.  `Program` is the tree of those calls: after each call the program
continues with whatever reply arrives, a value or a fault.  Nothing about the
service is fixed here.  A `Service` says which replies and which next states a
call may have, so a service that fails at will, or that answers from an old
snapshot, is just a larger relation.
-/

variable {E : Type} {context : E → E}

/-- A sequential client over the calls `Call`, where `Call β` is a request
answered by a `β` or by a `Fault`.  `crash` is a run-time abort such as a nil
dereference: the program stops and makes no further call. -/
inductive Program (Call : Type → Type) (Fault : Type) (α : Type) : Type 1 where
  | done (value : α)
  | crash (cause : String)
  | call {β : Type} (request : Call β)
      (next : Except Fault β → Program Call Fault α)

/-- A set of calls. -/
abbrev CallSet (Call : Type → Type) := ∀ ⦃answer : Type⦄, Call answer → Prop

namespace Program

variable {Call : Type → Type} {Fault : Type} {α β γ : Type}
  {allowed : CallSet Call}

/-- Sequential composition.  A crash of the first program is final. -/
protected def bind : Program Call Fault α → (α → Program Call Fault β) →
    Program Call Fault β
  | .done value, rest => rest value
  | .crash cause, _ => .crash cause
  | .call request next, rest => .call request fun reply => (next reply).bind rest

instance : Monad (Program Call Fault) where
  pure := .done
  bind := Program.bind

@[simp] theorem pure_eq (value : α) : (pure value : Program Call Fault α) = .done value := rfl

@[simp] theorem bind_eq (first : Program Call Fault α) (rest : α → Program Call Fault β) :
    first >>= rest = first.bind rest := rfl

@[simp] theorem done_bind (value : α) (rest : α → Program Call Fault β) :
    (Program.done value).bind rest = rest value := rfl

@[simp] theorem crash_bind (cause : String) (rest : α → Program Call Fault β) :
    (Program.crash cause : Program Call Fault α).bind rest = .crash cause := rfl

@[simp] theorem call_bind {δ : Type} (request : Call δ)
    (next : Except Fault δ → Program Call Fault α) (rest : α → Program Call Fault β) :
    (Program.call request next).bind rest =
      .call request fun reply => (next reply).bind rest := rfl

theorem bind_assoc (first : Program Call Fault α) (second : α → Program Call Fault β)
    (third : β → Program Call Fault γ) :
    (first.bind second).bind third =
      first.bind fun value => (second value).bind third := by
  induction first with
  | done value => rfl
  | crash cause => rfl
  | call request next ih =>
    simp only [call_bind]
    congr 1
    funext reply
    exact ih reply

/-- Issue one call and return its reply. -/
def request (request : Call α) : Program Call Fault (Except Fault α) := .call request .done

@[simp] theorem request_bind (request : Call α) (rest : Except Fault α → Program Call Fault β) :
    (Program.request request).bind rest = .call request rest := rfl

/-- Continue with the value, or return the fault after `context` has wrapped
it. -/
def orReturn {E : Type} (attempt : Program Call Fault (Except E α)) (context : E → E)
    (rest : α → Program Call Fault (Except E β)) : Program Call Fault (Except E β) :=
  attempt.bind fun
    | .ok value => rest value
    | .error fault => .done (.error (context fault))

/-- Run a program for its effects only. -/
def discard (program : Program Call Fault α) : Program Call Fault Unit :=
  program.bind fun _ => .done ()

/-- Every call the program can ever make is allowed. -/
def Makes (allowed : CallSet Call) :
    Program Call Fault α → Prop
  | .done _ => True
  | .crash _ => True
  | .call request next => allowed request ∧ ∀ reply, Makes allowed (next reply)

variable {first : Program Call Fault α} {rest : α → Program Call Fault β}

theorem Makes.bind (head : first.Makes allowed) (tail : ∀ value, (rest value).Makes allowed) :
    (first.bind rest).Makes allowed := by
  induction first with
  | done value => exact tail value
  | crash => trivial
  | call request next ih => exact ⟨head.1, fun reply => ih reply (head.2 reply)⟩

variable {program : Program Call Fault α}

theorem Makes.mono {wider : CallSet Call} (makes : program.Makes allowed)
    (implies : ∀ ⦃answer : Type⦄ (request : Call answer), allowed request → wider request) :
    program.Makes wider := by
  induction program with
  | done => trivial
  | crash => trivial
  | call request next ih =>
    exact ⟨implies request makes.1,
      fun reply => ih reply (makes.2 reply)⟩

theorem Makes.orReturn {attempt : Program Call Fault (Except E α)}
    {rest : α → Program Call Fault (Except E β)} (head : attempt.Makes allowed)
    (tail : ∀ value, (rest value).Makes allowed) :
    (attempt.orReturn context rest).Makes allowed := by
  apply head.bind
  intro value
  cases value with
  | ok value => exact tail value
  | error fault => trivial

theorem makes_true (program : Program Call Fault α) : program.Makes fun _ _ => True := by
  induction program with
  | done => trivial
  | crash => trivial
  | call request next ih => exact ⟨trivial, ih⟩

theorem Makes.discard (makes : program.Makes allowed) : program.discard.Makes allowed :=
  makes.bind fun _ => trivial

/-- Some sequence of replies leads the program to a call of the wanted kind. -/
def CanMake (wanted : CallSet Call) :
    Program Call Fault α → Prop
  | .done _ => False
  | .crash _ => False
  | .call request next => wanted request ∨ ∃ reply, CanMake wanted (next reply)

theorem CanMake.mono {wanted weaker : CallSet Call} (can : program.CanMake wanted)
    (implies : ∀ ⦃answer : Type⦄ (request : Call answer), wanted request → weaker request) :
    program.CanMake weaker := by
  induction program with
  | done => exact can
  | crash => exact can
  | call request next ih =>
    rcases can with now | ⟨reply, later⟩
    · exact .inl (implies request now)
    · exact .inr ⟨reply, ih reply later⟩

theorem CanMake.exists_allowed {wanted : CallSet Call} (can : program.CanMake wanted)
    (makes : program.Makes allowed) :
    ∃ (answer : Type) (request : Call answer), wanted request ∧ allowed request := by
  induction program with
  | done => cases can
  | crash => cases can
  | call request next ih =>
    rcases can with now | ⟨reply, later⟩
    · exact ⟨_, request, now, makes.1⟩
    · exact ih reply later (makes.2 reply)

/-- Whatever the replies, a value that the program returns has the property. -/
def Yields (holds : α → Prop) : Program Call Fault α → Prop
  | .done value => holds value
  | .crash _ => True
  | .call _ next => ∀ reply, Yields holds (next reply)

theorem Yields.bind {holds : β → Prop}
    (yields : first.Yields fun value => (rest value).Yields holds) :
    (first.bind rest).Yields holds := by
  induction first with
  | done value => exact yields
  | crash => trivial
  | call request next ih => exact fun reply => ih reply (yields reply)

theorem Yields.mono {holds weaker : α → Prop} (yields : program.Yields holds)
    (implies : ∀ value, holds value → weaker value) : program.Yields weaker := by
  induction program with
  | done value => exact implies value yields
  | crash => trivial
  | call request next ih => exact fun reply => ih reply (yields reply)

/-- The calls of the rest may depend on what the first program yields. -/
theorem Makes.bind_of_yields {holds : α → Prop} (head : first.Makes allowed)
    (yields : first.Yields holds) (tail : ∀ value, holds value → (rest value).Makes allowed) :
    (first.bind rest).Makes allowed := by
  induction first with
  | done value => exact tail value yields
  | crash => trivial
  | call request next ih => exact ⟨head.1, fun reply => ih reply (head.2 reply) (yields reply)⟩

theorem yields_true (program : Program Call Fault α) : program.Yields fun _ => True := by
  induction program with
  | done => trivial
  | crash => trivial
  | call request next ih => exact ih

/-- What the rest yields after anything, the whole yields. -/
theorem Yields.bind_of_forall {holds : β → Prop} (each : ∀ value, (rest value).Yields holds) :
    (first.bind rest).Yields holds :=
  .bind ((yields_true first).mono fun value _ => each value)

/-- Whatever the replies, the program never aborts. -/
def CrashFree : Program Call Fault α → Prop
  | .done _ => True
  | .crash _ => False
  | .call _ next => ∀ reply, CrashFree (next reply)

theorem CrashFree.bind (head : first.CrashFree) (tail : ∀ value, (rest value).CrashFree) :
    (first.bind rest).CrashFree := by
  induction first with
  | done value => exact tail value
  | crash => cases head
  | call request next ih => exact fun reply => ih reply (head reply)

end Program

/-- One call together with the reply it received. -/
structure Exchange (Call : Type → Type) (Fault : Type) : Type 1 where
  {answer : Type}
  request : Call answer
  reply : Except Fault answer

/-- What a service may do: the replies to a call in a state, each with the
state it leaves behind. -/
def Service (Call : Type → Type) (Fault State : Type) : Type 1 :=
  ∀ ⦃answer : Type⦄, Call answer → State → Except Fault answer → State → Prop

namespace Service

variable {Call : Type → Type} {Fault State : Type}

/-- The service that always carries out the call. -/
def reliable (serve : ∀ {answer : Type}, Call answer → State → Except Fault answer × State) :
    Service Call Fault State :=
  fun _ request before reply after => serve request before = (reply, after)

/-- The service that carries out the call, or fails with any fault and has no
effect. -/
def unreliable (serve : ∀ {answer : Type}, Call answer → State → Except Fault answer × State) :
    Service Call Fault State :=
  fun _ request before reply after =>
    serve request before = (reply, after) ∨
      (∃ fault, reply = .error fault) ∧ after = before

end Service

/-- How a run of a program ended.  `interrupted` is a run cut short between two
calls, so that runs are closed under taking an initial part. -/
inductive Outcome (α : Type) where
  | returned (value : α)
  | crashed (cause : String)
  | interrupted
deriving Repr, DecidableEq

/-- The value of a run that returned, or a fallback. -/
def Outcome.getD {α : Type} (outcome : Outcome α) (fallback : α) : α :=
  match outcome with
  | .returned value => value
  | _ => fallback

/-- The run returned a value that passes a check. -/
def Outcome.passes {α : Type} (outcome : Outcome α) (check : α → Bool) : Bool :=
  match outcome with
  | .returned value => check value
  | _ => false

theorem Outcome.exists_of_passes {α : Type} {outcome : Outcome α} {check : α → Bool}
    (passed : outcome.passes check = true) :
    ∃ value, outcome = .returned value ∧ check value = true := by
  cases outcome with
  | returned value => exact ⟨value, rfl, passed⟩
  | crashed cause => cases passed
  | interrupted => cases passed

/-- A call with its reply and the states around it. -/
structure Event (Call : Type → Type) (Fault State : Type) : Type 1 extends Exchange Call Fault where
  before : State
  after : State

/-- The event as seen through a view of the states. -/
def Event.map {Call : Type → Type} {Fault State Seen : Type} (view : State → Seen)
    (event : Event Call Fault State) : Event Call Fault Seen where
  request := event.request
  reply := event.reply
  before := view event.before
  after := view event.after

namespace Program

variable {Call : Type → Type} {Fault State : Type} {α β : Type} {value : α} {state final : State}
  {allowed : CallSet Call}
  (serve : ∀ {answer : Type}, Call answer → State → Except Fault answer × State)

/-- The runs of a program against a service, with the events in order. -/
inductive Runs (service : Service Call Fault State) :
    Program Call Fault α → State → List (Event Call Fault State) →
      Outcome α → State → Prop where
  | done (value : α) (state : State) :
      Runs service (.done value) state [] (.returned value) state
  | crash (cause : String) (state : State) :
      Runs service (.crash cause) state [] (.crashed cause) state
  | interrupted (program : Program Call Fault α) (state : State) :
      Runs service program state [] .interrupted state
  | call {answer : Type} {request : Call answer}
      {next : Except Fault answer → Program Call Fault α}
      {before after final : State} {reply : Except Fault answer}
      {events : List (Event Call Fault State)} {outcome : Outcome α}
      (served : service request before reply after)
      (rest : Runs service (next reply) after events outcome final) :
      Runs service (.call request next) before
        ({ request, reply, before, after } :: events) outcome final

variable {service : Service Call Fault State} {events : List (Event Call Fault State)}

theorem Runs.returned_of_done {other : α}
    (run : Runs service (.done value) state events (.returned other) final) :
    other = value ∧ final = state := by
  cases run
  exact ⟨rfl, rfl⟩

variable {outcome : Outcome α}

theorem Runs.events_of_done (run : Runs service (.done value) state events outcome final) :
    events = [] := by
  cases run with
  | done | interrupted => rfl

/-- One run, computed: the `k`-th call fails with the `k`-th fault of the
script, if there is one, and is carried out otherwise. -/
def execute (serve : ∀ {answer : Type}, Call answer → State → Except Fault answer × State) :
    Program Call Fault α → List (Option Fault) → State →
      List (Event Call Fault State) × Outcome α × State
  | .done value, _, state => ([], .returned value, state)
  | .crash cause, _, state => ([], .crashed cause, state)
  | .call request next, script, before =>
    let (reply, after) :=
      match script.head? with
      | some (some fault) => (.error fault, before)
      | _ => serve request before
    let (events, outcome, final) := execute serve (next reply) script.tail after
    ({ request, reply, before, after } :: events, outcome, final)

/-- A computed run is a run of the service that may fail. -/
theorem runs_execute (program : Program Call Fault α) (script : List (Option Fault))
    (state : State) :
    Runs (Service.unreliable serve) program state (program.execute serve script state).1
      (program.execute serve script state).2.1 (program.execute serve script state).2.2 := by
  induction program generalizing script state with
  | done value => exact .done value state
  | crash cause => exact .crash cause state
  | call request next ih =>
    refine .call ?_ (ih _ _ _)
    split
    · exact .inr ⟨⟨_, rfl⟩, rfl⟩
    · exact .inl rfl

/-- Without faults in the script a computed run is one of the service that
carries out every call. -/
theorem runs_execute_reliable (program : Program Call Fault α) (state : State) :
    Runs (Service.reliable serve) program state (program.execute serve [] state).1
      (program.execute serve [] state).2.1 (program.execute serve [] state).2.2 := by
  induction program generalizing state with
  | done value => exact .done value state
  | crash cause => exact .crash cause state
  | call request next ih => exact .call rfl (ih _ _)

variable {program : Program Call Fault α}

/-- Simulation: if one service carries out the calls of a program as another
one does, seen through a view of its states, then so are the runs. -/
theorem Runs.map {Seen : Type} {seen : Service Call Fault Seen} (view : State → Seen)
    (simulates : ∀ ⦃answer : Type⦄ (request : Call answer), allowed request →
      ∀ before reply after, service request before reply after →
        seen request (view before) reply (view after)) (makes : program.Makes allowed)
    (run : Runs service program state events outcome final) :
    Runs seen program (view state) (events.map (Event.map view)) outcome (view final) := by
  induction run with
  | done value state => exact .done value _
  | crash cause state => exact .crash cause _
  | interrupted program state => exact .interrupted program _
  | call served rest ih =>
    have seenServed := simulates _ makes.1 _ _ _ served
    exact .call seenServed (ih (makes.2 _))

variable {first : Program Call Fault α} {rest : α → Program Call Fault β}

/-- A run of the rest continues a run that returned. -/
theorem Runs.bind {middle : State} {early late : List (Event Call Fault State)}
    {outcome : Outcome β} (head : Runs service first state early (.returned value) middle)
    (tail : Runs service (rest value) middle late outcome final) :
    Runs service (first.bind rest) state (early ++ late) outcome final := by
  induction first generalizing state early with
  | done value =>
    cases head
    exact tail
  | crash cause => cases head
  | call request next ih =>
    cases head with
    | call served remainder => exact .call served (ih _ remainder)

/-- A crash of the first program is the crash of the whole. -/
theorem Runs.bind_crashed {cause : String}
    (head : Runs service first state events (.crashed cause) final)
    (rest : α → Program Call Fault β) :
    Runs service (first.bind rest) state events (.crashed cause) final := by
  induction first generalizing state events with
  | done value => cases head
  | crash other =>
    cases head
    exact .crash cause _
  | call request next ih =>
    cases head with
    | call served remainder => exact .call served (ih _ remainder)

theorem Runs.not_crashed (run : Runs service program state events outcome final)
    (free : program.CrashFree) (cause : String) : outcome ≠ .crashed cause := by
  induction run with
  | done | interrupted => exact nofun
  | crash => cases free
  | call _ _ ih => exact ih (free _)

/-- On a service that always carries out its calls a program that never aborts returns. -/
theorem CrashFree.exists_returned (free : program.CrashFree) (state : State) :
    ∃ events value final,
      Runs (Service.reliable serve) program state events (.returned value) final := by
  induction program generalizing state with
  | done value => exact ⟨[], value, state, .done value state⟩
  | crash => cases free
  | call request next ih =>
    obtain ⟨events, value, final, rest⟩ := ih _ (free _)
      (serve request state).2
    exact ⟨_, value, final, .call rfl rest⟩

/-- What a program yields, its runs return. -/
theorem Runs.of_yields {holds : α → Prop}
    (run : Runs service program state events (.returned value) final)
    (yields : program.Yields holds) : holds value := by
  induction program generalizing state events with
  | done other =>
    cases run
    exact yields
  | crash => cases run
  | call request next ih =>
    cases run with
    | call served rest => exact ih _ rest (yields _)

/-- A service that may do more has more runs. -/
theorem Runs.mono {wider : Service Call Fault State}
    (includes : ∀ ⦃answer : Type⦄ (request : Call answer) before reply after,
      service request before reply after → wider request before reply after)
    (run : Runs service program state events outcome final) :
    Runs wider program state events outcome final := by
  induction run with
  | done value state => exact .done value state
  | crash cause state => exact .crash cause state
  | interrupted program state => exact .interrupted program state
  | call served _ ih => exact .call (includes _ _ _ _ served) ih

/-- What every call of a program does to the state, its runs do. -/
theorem Runs.of_makes (related : State → State → Prop) (refl : ∀ state, related state state)
    (trans : ∀ {first second third}, related first second →
      related second third → related first third)
    (keeps : ∀ ⦃answer : Type⦄ (request : Call answer), allowed request →
      ∀ before reply after, service request before reply after →
        related before after) (makes : program.Makes allowed)
    (run : Runs service program state events outcome final) : related state final := by
  induction run with
  | done _ state => exact refl state
  | crash _ state => exact refl state
  | interrupted _ state => exact refl state
  | call served _ ih =>
    have first := keeps _ makes.1 _ _ _ served
    exact trans first (ih (makes.2 _))

/-- A service that may do more at the calls of a program has more runs of it. -/
theorem Runs.mono_of_makes {wider : Service Call Fault State} (makes : program.Makes allowed)
    (run : Runs service program state events outcome final)
    (includes : ∀ ⦃answer : Type⦄ (request : Call answer), allowed request →
      ∀ before reply after, service request before reply after →
        wider request before reply after) : Runs wider program state events outcome final := by
  induction run with
  | done value state => exact .done value state
  | crash cause state => exact .crash cause state
  | interrupted program state => exact .interrupted program state
  | call served _ ih => exact .call (includes _ makes.1 _ _ _ served) (ih (makes.2 _))

/-- Every event of a run is a call that the program can make. -/
theorem Runs.request_of_makes (makes : program.Makes allowed)
    (run : Runs service program state events outcome final) :
    ∀ event ∈ events, allowed event.request := by
  induction run with
  | done => simp
  | crash => simp
  | interrupted => simp
  | call _ _ ih =>
    intro event member
    rcases List.mem_cons.mp member with rfl | later
    · exact makes.1
    · exact ih (makes.2 _) event later

/-- On a service that always carries out its calls a program has one way to
return. -/
theorem Runs.returned_unique
    {serve : ∀ {answer : Type}, Call answer → State → Except Fault answer × State} {other : State}
    {otherEvents : List (Event Call Fault State)} {otherValue : α}
    (run : Runs (Service.reliable serve) program state events (.returned value) final)
    (again : Runs (Service.reliable serve) program state otherEvents (.returned otherValue) other) :
    value = otherValue ∧ final = other := by
  induction program generalizing state events otherEvents with
  | done _ =>
    cases run
    cases again
    exact ⟨rfl, rfl⟩
  | crash _ => cases run
  | call request next ih =>
    cases run with
    | call served rest =>
      cases again with
      | call servedAgain restAgain =>
        have same := Prod.mk.inj (served.symm.trans servedAgain)
        obtain ⟨rfl, rfl⟩ := same
        exact ih _ rest restAgain

/-- Bind splits a run into a run of the first program and, if that one
returned, a run of the rest. -/
theorem Runs.bind_cases {outcome : Outcome β}
    (run : Runs service (first.bind rest) state events outcome final) :
    (∃ value early late middle, events = early ++ late ∧
        Runs service first state early (.returned value) middle ∧
        Runs service (rest value) middle late outcome final) ∨
      (∃ cause, outcome = .crashed cause ∧
        Runs service first state events (.crashed cause) final) ∨
      (outcome = .interrupted ∧
        Runs service first state events .interrupted final) := by
  induction first generalizing state events with
  | done value => exact .inl ⟨value, [], events, state, rfl, .done value state, run⟩
  | crash cause =>
    cases run with
    | crash => exact .inr (.inl ⟨cause, rfl, .crash cause _⟩)
    | interrupted => exact .inr (.inr ⟨rfl, .interrupted _ _⟩)
  | call request next ih =>
    cases run with
    | interrupted => exact .inr (.inr ⟨rfl, .interrupted _ _⟩)
    | call served tail =>
      rcases ih _ tail with
        ⟨value, early, late, middle, rfl, head, remainder⟩ |
          ⟨cause, ended, head⟩ | ⟨ended, head⟩
      · exact .inl ⟨value, _ :: early, late, middle, rfl, .call served head, remainder⟩
      · exact .inr (.inl ⟨cause, ended, .call served head⟩)
      · exact .inr (.inr ⟨ended, .call served head⟩)

/-- A run that returned has been given an answer to its first call. -/
theorem Runs.of_call {answer : Type} {request : Call answer} {returned : β}
    {next : Except Fault answer → Program Call Fault β}
    (run : Runs service (.call request next) state events (.returned returned) final) :
    ∃ reply middle late, events = { request, reply, before := state, after := middle } :: late ∧
      service request state reply middle ∧
      Runs service (next reply) middle late (.returned returned) final := by
  cases run with
  | call served rest => exact ⟨_, _, _, rfl, served, rest⟩

/-- A run that returned has returned from the first program as well. -/
theorem Runs.exists_of_bind {returned : β}
    (run : Runs service (first.bind rest) state events (.returned returned) final) :
    ∃ value early late middle, events = early ++ late ∧
      Runs service first state early (.returned value) middle ∧
      Runs service (rest value) middle late (.returned returned) final := by
  rcases run.bind_cases with split | ⟨_, ended, _⟩ | ⟨ended, _⟩
  · exact split
  · cases ended
  · cases ended

/-- Where an attempt returned a value, its run goes on with the rest. -/
theorem Runs.orReturn {attempt : Program Call Fault (Except E α)}
    {rest : α → Program Call Fault (Except E β)} {middle : State}
    {early late : List (Event Call Fault State)} {outcome : Outcome (Except E β)}
    (head : Runs service attempt state early (.returned (.ok value)) middle)
    (tail : Runs service (rest value) middle late outcome final) :
    Runs service (attempt.orReturn context rest) state (early ++ late) outcome final :=
  head.bind tail

/-- A run either gets past the attempt, or ends with it and returns no value. -/
theorem Runs.orReturn_cases {attempt : Program Call Fault (Except E α)}
    {rest : α → Program Call Fault (Except E β)} {outcome : Outcome (Except E β)}
    (run : Runs service (attempt.orReturn context rest) state events outcome final) :
    (∃ value early late middle, events = early ++ late ∧
        Runs service attempt state early (.returned (.ok value)) middle ∧
        Runs service (rest value) middle late outcome final) ∨
      (∀ value, outcome ≠ .returned (.ok value)) ∧
        ∃ early ended, Runs service attempt state early ended final := by
  rcases run.bind_cases with
    ⟨returned, early, late, middle, joined, head, tail⟩ | ⟨cause, rfl, head⟩ |
      ⟨rfl, head⟩
  · cases returned with
    | ok value => exact .inl ⟨value, early, late, middle, joined, head, tail⟩
    | error fault =>
      right
      cases tail with
      | done => exact ⟨nofun, early, _, head⟩
      | interrupted => exact ⟨nofun, early, _, head⟩
  · exact .inr ⟨nofun, events, _, head⟩
  · exact .inr ⟨nofun, events, _, head⟩

end Program

/-!
### Contracts

A program runs among others.  Its contract names the service it calls, the
changes of the state it tolerates between its own calls (`rely`), which of its
own exchanges are under consideration (`admits`), and what each of them promises
(`guarantee`).  Promises may mention the program's own earlier events, newest
first.
-/

/-- The terms under which a program is verified. -/
structure Contract (Call : Type → Type) (Fault State : Type) : Type 1 where
  service : Service Call Fault State
  rely : State → State → Prop
  rely_refl : ∀ state, rely state state
  rely_trans : ∀ {first second third}, rely first second → rely second third →
    rely first third
  admits : List (Event Call Fault State) → Event Call Fault State → Prop
  guarantee : List (Event Call Fault State) → Event Call Fault State → Prop

namespace Program

variable {Call : Type → Type} {Fault State : Type} {α β : Type} {state : State}
  {allowed : CallSet Call}

/-- The program meets its contract from this state on, and returns only values
for which `post` holds.  Before every call, and before the return is observed,
the state may have moved along `rely`. -/
def Safe (contract : Contract Call Fault State)
    (post : α → List (Event Call Fault State) → State → Prop) :
    Program Call Fault α → List (Event Call Fault State) → State → Prop
  | .done value, history, state => ∀ later, contract.rely state later → post value history later
  | .crash _, _, _ => True
  | .call request next, history, state =>
    ∀ before, contract.rely state before → ∀ reply after,
      contract.service request before reply after →
      contract.admits history { request, reply, before, after } →
        contract.guarantee history { request, reply, before, after } ∧
          Safe contract post (next reply)
            ({ request, reply, before, after } :: history) after

variable {program : Program Call Fault α} {history : List (Event Call Fault State)}

namespace Safe

variable {contract : Contract Call Fault State}
  {post : α → List (Event Call Fault State) → State → Prop}

/-- Interference before the next call does no harm. -/
theorem stable {later : State} (safe : Safe contract post program history state)
    (moved : contract.rely state later) : Safe contract post program history later := by
  cases program with
  | done value =>
    intro final more
    exact safe final (contract.rely_trans moved more)
  | crash => trivial
  | call request next =>
    intro before more
    exact safe before (contract.rely_trans moved more)

/-- Consequence. -/
theorem mono {weaker : α → List (Event Call Fault State) → State → Prop}
    (safe : Safe contract post program history state)
    (implies : ∀ value history state, post value history state → weaker value history state) :
    Safe contract weaker program history state := by
  induction program generalizing history state with
  | done value =>
    intro later moved
    exact implies _ _ _ (safe later moved)
  | crash => trivial
  | call request next ih =>
    intro before moved reply after served admitted
    have ⟨kept, rest⟩ := safe before moved reply after served admitted
    exact ⟨kept, ih _ rest⟩

/-- Sequential composition: the rest only has to be safe where the first
program returned. -/
theorem bind {first : Program Call Fault β} {rest : β → Program Call Fault α}
    (safe : Safe contract (fun value history state => Safe contract post (rest value) history state)
      first history state) : Safe contract post (first.bind rest) history state := by
  induction first generalizing history state with
  | done value => exact safe state (contract.rely_refl state)
  | crash => trivial
  | call request next ih =>
    intro before moved reply after served admitted
    have ⟨kept, tail⟩ := safe before moved reply after served admitted
    exact ⟨kept, ih _ tail⟩

/-- The rest only has to be safe where the attempt returned a value. -/
theorem orReturn {attempt : Program Call Fault (Except E β)}
    {rest : β → Program Call Fault (Except E α)}
    {post : Except E α → List (Event Call Fault State) → State → Prop} (safe : Safe contract
      (fun returned history state =>
        match returned with
        | .ok value => Safe contract post (rest value) history state
        | .error fault => ∀ later, contract.rely state later →
            post (.error (context fault)) history later)
      attempt history state) :
    Safe contract post (attempt.orReturn context rest) history state := by
  apply Safe.bind
  refine safe.mono fun returned history state after => ?_
  cases returned with
  | ok value => exact after
  | error fault => exact after

/-- Running a program for its effects only is as safe as running it. -/
theorem discard {program : Program Call Fault β}
    (safe : Safe contract (fun _ _ _ => True) program history state) :
    Safe contract (fun _ _ _ => True) program.discard history state := by
  apply Safe.bind
  exact safe.mono fun _ _ _ _ _ _ => trivial

/-- What the program yields whatever the replies, it also yields here. -/
theorem and_yields {holds : α → Prop} (safe : Safe contract post program history state)
    (yields : program.Yields holds) :
    Safe contract (fun value history state => post value history state ∧ holds value)
      program history state := by
  induction program generalizing history state with
  | done value => exact fun later moved => ⟨safe later moved, yields⟩
  | crash => trivial
  | call request next ih =>
    intro before moved reply after served admitted
    have ⟨kept, rest⟩ := safe before moved reply after served admitted
    exact ⟨kept, ih reply rest (yields reply)⟩

/-- A program whose calls all keep the promise and the rely condition is safe,
and moves the state along the rely condition only.  The promise may need
something that a history never loses. -/
theorem of_makes_from (remembers : List (Event Call Fault State) → Prop)
    (grows : ∀ history event, remembers history → remembers (event :: history))
    (makes : program.Makes allowed) (starts : remembers history)
    (keeps : ∀ ⦃answer : Type⦄ (request : Call answer), allowed request →
      ∀ history before reply after, remembers history →
        contract.service request before reply after →
        contract.admits history { request, reply, before, after } →
          contract.guarantee history { request, reply, before, after } ∧
            contract.rely before after) :
    Safe contract (fun _ _ later => contract.rely state later) program history state := by
  induction program generalizing history state with
  | done value => exact fun later moved => moved
  | crash => trivial
  | call request next ih =>
    intro before moved reply after served admitted
    have ⟨kept, onward⟩ := keeps request makes.1 history before reply after starts served admitted
    have remembered := grows history { request, reply, before, after } starts
    refine ⟨kept, (ih reply (makes.2 reply) remembered).mono ?_⟩
    intro _ _ later further
    exact contract.rely_trans moved (contract.rely_trans onward further)

/-- The same for promises that need nothing of the history. -/
theorem of_makes (makes : program.Makes allowed)
    (keeps : ∀ ⦃answer : Type⦄ (request : Call answer), allowed request →
      ∀ history before reply after, contract.service request before reply after →
        contract.admits history { request, reply, before, after } →
          contract.guarantee history { request, reply, before, after } ∧
            contract.rely before after) :
    Safe contract (fun _ _ later => contract.rely state later) program history state := by
  apply of_makes_from (fun _ => True) (fun _ _ => id) makes trivial
  intro answer request allows history before reply after _
  exact keeps request allows history before reply after

/-- The same for promises that need something of the state: what no other program
breaks and every call of this one keeps. -/
theorem of_makes_while (holds : State → Prop)
    (stable : ∀ {before after}, contract.rely before after → holds before → holds after)
    (makes : program.Makes allowed) (starts : holds state)
    (keeps : ∀ ⦃answer : Type⦄ (request : Call answer), allowed request →
      ∀ history before reply after, holds before →
        contract.service request before reply after →
        contract.admits history { request, reply, before, after } →
          contract.guarantee history { request, reply, before, after } ∧
            holds after) : Safe contract (fun _ _ later => holds later) program history state := by
  induction program generalizing history state with
  | done value => exact fun later moved => stable moved starts
  | crash => trivial
  | call request next ih =>
    intro before moved reply after served admitted
    have ⟨kept, onward⟩ := keeps request makes.1 history before reply after
      (stable moved starts) served admitted
    exact ⟨kept, ih reply (makes.2 reply) onward⟩

end Safe

end Program

/-- Every event of a run keeps the contract's promise, given the events before
it. -/
def Contract.Kept {Call : Type → Type} {Fault State : Type} (contract : Contract Call Fault State) :
    List (Event Call Fault State) → List (Event Call Fault State) → Prop
  | _, [] => True
  | history, event :: events =>
    contract.guarantee history event ∧ contract.Kept (event :: history) events

/-- Every event of a run is under consideration. -/
def Contract.Admitted {Call : Type → Type} {Fault State : Type}
    (contract : Contract Call Fault State) :
    List (Event Call Fault State) → List (Event Call Fault State) → Prop
  | _, [] => True
  | history, event :: events =>
    contract.admits history event ∧ contract.Admitted (event :: history) events

namespace Contract

variable {Call : Type → Type} {Fault State : Type}
  {contract : Contract Call Fault State}

/-- A promise that does not look at the history holds of every event. -/
theorem Kept.of_mem {promise : Event Call Fault State → Prop}
    (forgets : ∀ history event, contract.guarantee history event → promise event)
    {history events : List (Event Call Fault State)} (kept : contract.Kept history events) :
    ∀ event ∈ events, promise event := by
  induction events generalizing history with
  | nil => simp
  | cons event rest ih =>
    intro other member
    rcases List.mem_cons.mp member with rfl | later
    · exact forgets history other kept.1
    · exact ih kept.2 other later

/-- Whether a run is considered, when that does not depend on what came before. -/
theorem Admitted.of_mem {events : List (Event Call Fault State)}
    (each : ∀ event ∈ events, ∀ history, contract.admits history event)
    (history : List (Event Call Fault State)) : contract.Admitted history events := by
  induction events generalizing history with
  | nil => trivial
  | cons event rest ih =>
    exact ⟨each event (.head _) history,
      ih (fun other later => each other (.tail _ later)) _⟩

/-- A contract that considers everything admits every run. -/
theorem Admitted.of_forall (always : ∀ history event, contract.admits history event)
    (history events : List (Event Call Fault State)) : contract.Admitted history events :=
  .of_mem (fun event _ history => always history event) history

end Contract

namespace Program.Safe

variable {Call : Type → Type} {Fault State : Type} {α : Type}
  {contract : Contract Call Fault State}
  {post : α → List (Event Call Fault State) → State → Prop}

/-- A safe program run alone keeps its promises and returns what it should. -/
theorem sound {program : Program Call Fault α} {history events : List (Event Call Fault State)}
    {state final : State} {outcome : Outcome α} (safe : Safe contract post program history state)
    (run : Runs contract.service program state events outcome final)
    (admitted : contract.Admitted history events) :
    contract.Kept history events ∧
      ∀ value, outcome = .returned value → post value (events.reverse ++ history) final := by
  induction run generalizing history with
  | done value state =>
    refine ⟨trivial, ?_⟩
    intro other same
    cases same
    exact safe state (contract.rely_refl state)
  | crash cause state => exact ⟨trivial, by simp⟩
  | interrupted program state => exact ⟨trivial, by simp⟩
  | call served rest ih =>
    have ⟨kept, tail⟩ := safe _ (contract.rely_refl _) _ _ served admitted.1
    have ⟨keptRest, returned⟩ := ih tail admitted.2
    exact ⟨⟨kept, keptRest⟩, by simpa using returned⟩

end Program.Safe

end ScoreOrchestrator.Foundation
