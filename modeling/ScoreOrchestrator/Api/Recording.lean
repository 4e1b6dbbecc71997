/-
Module: Api.Recording
Purpose: An API server whose exchanges are logged for the statements about whole
  runs; the programs never see the log.
Trusted boundary: human-reviewed spec
Main exports: Recorded, Recorder, recordingServer, runs_recording
-/
import ScoreOrchestrator.Api.ServerLaws

namespace ScoreOrchestrator

open Foundation Program

/-- A store with a log of what happened to it, newest entry first. -/
structure Recorded (Entry : Type) where
  store : Store
  log : List Entry

/-- What an exchange adds to the log, given the store it met. -/
abbrev Recorder (Entry : Type) : Type 1 :=
  ∀ ⦃answer : Type⦄, Call answer → Except GoError answer → Store → Option Entry

variable {Entry : Type}

/-- The API server with a log. -/
def recordingServer (record : Recorder Entry) : Server (Recorded Entry) :=
  fun _ request before reply after =>
    apiServer request before.store reply after.store ∧
      after.log = (record request reply before.store).toList ++ before.log

/-- The log after some more events. -/
def recordLog (record : Recorder Entry) (log : List Entry) (events : List ApiEvent) : List Entry :=
  events.foldl
    (fun log event => (record event.request event.reply event.before).toList ++ log) log

/-- The events of a run with the log beside them. -/
def recordEvents (record : Recorder Entry) :
    List Entry → List ApiEvent →
      List (EventOn (Recorded Entry))
  | _, [] => []
  | log, event :: rest =>
    let grown := (record event.request event.reply event.before).toList ++ log
    { request := event.request
      reply := event.reply
      before := { store := event.before, log }
      after := { store := event.after, log := grown } } ::
      recordEvents record grown rest

/-- A run against the API server is one against the server with a log. -/
theorem runs_recording (record : Recorder Entry) {α : Type} {program : Client α}
    {before after : Store} {events : List ApiEvent} {outcome : Outcome α}
    (run : program.Runs apiServer before events outcome after) (log : List Entry) :
    program.Runs (recordingServer record) { store := before, log }
      (recordEvents record log events) outcome
      { store := after, log := recordLog record log events } := by
  induction run generalizing log with
  | done value store => exact .done value _
  | crash cause store => exact .crash cause _
  | interrupted program store => exact .interrupted program _
  | call served _ ih => exact .call ⟨served, rfl⟩ (ih _)

/-- Without the log the recorded events are those of the run. -/
theorem map_store_recordEvents (record : Recorder Entry) (log : List Entry)
    (events : List ApiEvent) :
    (recordEvents record log events).map (Event.map Recorded.store) = events := by
  induction events generalizing log with
  | nil => rfl
  | cons event rest ih => exact congrArg (event :: ·) (ih _)

/-- The recorded events of an undisturbed run. -/
def recordedRun (record : Recorder Entry) (program : Client Unit) (state : Recorded Entry) :
    List (EventOn (Recorded Entry)) :=
  recordEvents record state.log (program.execute serve [] state.store).1

/-- The store and its log after that run.  Only the kernel evaluates it. -/
@[irreducible] def afterRecorded (record : Recorder Entry) (program : Client Unit)
    (state : Recorded Entry) : Recorded Entry where
  store := (program.execute serve [] state.store).2.2
  log := recordLog record state.log (program.execute serve [] state.store).1

theorem runs_afterRecorded (record : Recorder Entry) (program : Client Unit)
    (state : Recorded Entry) :
    program.Runs (recordingServer record) state (recordedRun record program state)
      (program.execute serve [] state.store).2.1 (afterRecorded record program state) := by
  unfold afterRecorded
  exact runs_recording record (runs_execute serve program [] state.store) state.log

end ScoreOrchestrator
