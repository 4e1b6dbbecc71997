/-
Module: Proofs.PlanLog
Purpose: A log of who read and wrote which WorkloadPlan, and what it says about
  the stored plans after every exchange.
-/
import ScoreOrchestrator.Api.ServerLaws

namespace ScoreOrchestrator.Runtime

open Foundation

/-!
The pipeline writes the spec of a plan, the runtime its status, and nothing in
the status says which spec it is about.  The states here carry a log of who read
and wrote which plan.  It is only looked at by the statements, never by the
programs.
-/

variable {sent plan : WorkloadPlan}

/-- What the log keeps: a plan that the runtime read, a plan that it sent with a
new status, and a plan that the pipeline sent with a new spec.  Only writes that
succeeded count. -/
inductive PlanRecord where
  | read (plan : WorkloadPlan)
  | statusWritten (plan : WorkloadPlan)
  | specWritten (plan : WorkloadPlan)
deriving DecidableEq

/-- A store with the log of its plans, newest record first. -/
structure Logged where
  store : Store
  log : List PlanRecord

/-- One worker for the pipeline, any number for the runtime. -/
inductive PlanActor where
  | pipeline
  | runtime (worker : Nat)
deriving DecidableEq, Repr

/-- What an exchange adds to the log. -/
def PlanActor.record (actor : PlanActor) {answer : Type} (request : Call answer)
    (reply : Except GoError answer) : Option PlanRecord :=
  match actor with
  | .pipeline =>
    if reply.toOption.isSome then
      (request.written .workloadPlan).map .specWritten
    else none
  | .runtime _ =>
    match request.fetched .workloadPlan reply with
    | some plan => some (.read plan)
    | none =>
      if reply.toOption.isSome then
        (request.sentStatus .workloadPlan).map .statusWritten
      else none

/-- A server that keeps the log. -/
def loggedServer (actor : PlanActor) (server : Server Store) : Server Logged :=
  fun _ request before reply after =>
    server request before.store reply after.store ∧
      after.log = (actor.record request reply).toList ++ before.log

/-- Is this a write to the plan under a key? -/
def PlanRecord.writes (key : NamespacedName) : PlanRecord → Bool
  | .read _ => false
  | .statusWritten plan | .specWritten plan => plan.key = key

/-- The newest write to a plan. -/
def lastWrite (key : NamespacedName) (log : List PlanRecord) : Option PlanRecord :=
  log.find? fun record => record.writes key

theorem lastWrite_cons_of_writes {key : NamespacedName} {record : PlanRecord}
    (writes : record.writes key = true) (log : List PlanRecord) :
    lastWrite key (record :: log) = some record := by
  simp [lastWrite, writes]

theorem lastWrite_cons_of_not_writes {key : NamespacedName} {record : PlanRecord}
    (other : record.writes key = false) (log : List PlanRecord) :
    lastWrite key (record :: log) = lastWrite key log := by
  simp [lastWrite, other]

/-- Is the newest write to a plan one of its status? -/
def statusIsNewest (key : NamespacedName) (log : List PlanRecord) : Bool :=
  match lastWrite key log with
  | some (.statusWritten _) => true
  | _ => false

/-- The status a plan was read with comes from the runtime, which had read a
spec for a given generation before. -/
def PhaseWrittenFor (plan : WorkloadPlan) (generation : Nat) (log : List PlanRecord) : Prop :=
  ∃ later sent earlier, log = later ++ .statusWritten sent :: earlier ∧
    (∀ record ∈ later, record.writes plan.key = false) ∧
    sent.key = plan.key ∧ sent.status = plan.status ∧
    ∃ seen, .read seen ∈ earlier ∧ seen.key = plan.key ∧
      seen.spec.observedWorkloadGeneration = generation

/-- A cluster that has no plans yet. -/
def NoPlans (logged : Logged) : Prop :=
  (logged.store.table .workloadPlan).rows = [] ∧ logged.log = []

/-! ### The log invariant -/

/-- Each status that the runtime sent goes with a plan it had read. -/
def ReadBefore : List PlanRecord → Prop
  | [] => True
  | .statusWritten sent :: earlier =>
    (∃ seen, .read seen ∈ earlier ∧ seen.key = sent.key ∧ seen.spec = sent.spec) ∧
      ReadBefore earlier
  | _ :: earlier => ReadBefore earlier

theorem ReadBefore.of_append {later earlier : List PlanRecord}
    (all : ReadBefore (later ++ .statusWritten sent :: earlier)) :
    ∃ seen, .read seen ∈ earlier ∧ seen.key = sent.key ∧ seen.spec = sent.spec := by
  induction later with
  | nil => exact all.1
  | cons record rest ih =>
    cases record with
    | statusWritten => exact ih all.2
    | read => exact ih all
    | specWritten => exact ih all

/-- What the log says about the stored plans: none is marked for deletion, and
where the status is newer than the spec, both are what the runtime sent. -/
structure PlanLog (logged : Logged) : Prop where
  unmarked : ∀ plan ∈ (logged.store.table .workloadPlan).rows,
    plan.metadata.deletionTimestamp = none
  current : ∀ plan ∈ (logged.store.table .workloadPlan).rows, ∀ sent,
    lastWrite plan.key logged.log = some (.statusWritten sent) →
      plan.spec = sent.spec ∧ plan.status = sent.status
  readBefore : ReadBefore logged.log

namespace PlanLog

variable {before after : Logged}

theorem of_noPlans {logged : Logged} (empty : NoPlans logged) : PlanLog logged where
  unmarked plan member := by
    rw [empty.1] at member
    cases member
  current plan member := by
    rw [empty.1] at member
    cases member
  readBefore := by
    rw [empty.2]
    trivial

/-- As long as the plans stay and the log names the same last writes. -/
theorem of_lastWrite (kept : PlanLog before)
    (plans : after.store.table .workloadPlan = before.store.table .workloadPlan)
    (last : ∀ key, lastWrite key after.log = lastWrite key before.log)
    (readBefore : ReadBefore after.log) : PlanLog after where
  unmarked := by
    rw [plans]
    exact kept.unmarked
  current := by
    rw [plans]
    intro plan member sent written
    rw [last] at written
    exact kept.current plan member sent written
  readBefore := readBefore

theorem of_same (kept : PlanLog before)
    (plans : after.store.table .workloadPlan = before.store.table .workloadPlan)
    (log : after.log = before.log) : PlanLog after := by
  apply kept.of_lastWrite plans <;> rw [log]
  · exact fun _ => rfl
  · exact kept.readBefore

theorem of_read (kept : PlanLog before)
    (plans : after.store.table .workloadPlan = before.store.table .workloadPlan)
    (log : after.log = .read plan :: before.log) : PlanLog after := by
  apply kept.of_lastWrite plans <;> rw [log]
  · exact fun _ => rfl
  · exact kept.readBefore

theorem of_specWritten (kept : PlanLog before) {next : WorkloadPlan}
    (log : after.log = .specWritten sent :: before.log) (named : next.key = sent.key)
    (mark : next.metadata.deletionTimestamp = none)
    (rows : ∀ other ∈ (after.store.table .workloadPlan).rows,
      other = next ∨ other ∈ (before.store.table .workloadPlan).rows) : PlanLog after := by
  constructor
  · intro plan member
    rcases rows plan member with rfl | old
    · exact mark
    · exact kept.unmarked plan old
  · intro plan member newest last
    rw [log] at last
    by_cases same : sent.key = plan.key
    · -- the spec is newer than any status under its key
      have writes : (PlanRecord.specWritten sent).writes plan.key = true := decide_eq_true same
      rw [lastWrite_cons_of_writes writes] at last
      cases last
    · have other : (PlanRecord.specWritten sent).writes plan.key = false := decide_eq_false same
      rw [lastWrite_cons_of_not_writes other] at last
      rcases rows plan member with rfl | old
      · exact absurd named.symm same
      · exact kept.current plan old newest last
  · rw [log]
    exact kept.readBefore

theorem of_statusWritten (kept : PlanLog before) {next : WorkloadPlan}
    (log : after.log = .statusWritten sent :: before.log)
    (seen : ∃ seen, .read seen ∈ before.log ∧ seen.key = sent.key ∧ seen.spec = sent.spec)
    (named : next.key = sent.key) (mark : next.metadata.deletionTimestamp = none)
    (specs : next.spec = sent.spec) (statuses : next.status = sent.status)
    (rows : ∀ other ∈ (after.store.table .workloadPlan).rows, other = next ∨
      other ∈ (before.store.table .workloadPlan).rows ∧ other.key ≠ sent.key) : PlanLog after := by
  constructor
  · intro plan member
    rcases rows plan member with rfl | ⟨old, _⟩
    · exact mark
    · exact kept.unmarked plan old
  · intro plan member newest last
    rw [log] at last
    rcases rows plan member with rfl | ⟨old, different⟩
    · have writes : (PlanRecord.statusWritten sent).writes plan.key = true :=
        decide_eq_true named.symm
      rw [lastWrite_cons_of_writes writes] at last
      cases last
      exact ⟨specs, statuses⟩
    · have other : (PlanRecord.statusWritten sent).writes plan.key = false :=
        decide_eq_false different.symm
      rw [lastWrite_cons_of_not_writes other] at last
      exact kept.current plan old newest last
  · rw [log]
    exact ⟨seen, kept.readBefore⟩

end PlanLog

/-! ### What every exchange does -/

/-- The log invariant is kept, plans change only by new versions, and the log
only grows. -/
structure PlanStep (before after : Logged) : Prop where
  invariant : PlanLog before → PlanLog after
  evolves : before.store.Evolves .workloadPlan after.store
  grows : before.log <:+ after.log

theorem PlanStep.refl (logged : Logged) : PlanStep logged logged :=
  ⟨id, .refl _ _, List.suffix_refl _⟩

theorem PlanStep.trans {first second third : Logged} (early : PlanStep first second)
    (late : PlanStep second third) : PlanStep first third :=
  ⟨late.invariant ∘ early.invariant, early.evolves.trans late.evolves,
    early.grows.trans late.grows⟩

/-- The spec stored under a key. -/
def specAt (key : NamespacedName) (logged : Logged) : Option WorkloadPlanSpec :=
  (logged.store.find? .workloadPlan key).map Resource.spec

/-- No plan gets another spec. -/
def KeepsSpecs (before after : Logged) : Prop := ∀ key, specAt key after = specAt key before

theorem KeepsSpecs.refl (logged : Logged) : KeepsSpecs logged logged := fun _ => rfl

theorem KeepsSpecs.trans {first second third : Logged} (early : KeepsSpecs first second)
    (late : KeepsSpecs second third) : KeepsSpecs first third :=
  fun key => (late key).trans (early key)

variable {before after : Logged}

theorem KeepsSpecs.of_table
    (plans : after.store.table .workloadPlan = before.store.table .workloadPlan) :
    KeepsSpecs before after := by
  intro key
  unfold specAt Store.find?
  rw [plans]

/-- A call that writes no plan. -/
theorem planStep_of_leaves {actor : PlanActor} {answer : Type} {request : Call answer}
    {reply : Except GoError answer} (leaves : request.Leaves .workloadPlan)
    (served : apiServer request before.store reply after.store)
    (log : after.log = (actor.record request reply).toList ++ before.log) :
    PlanStep before after ∧ KeepsSpecs before after := by
  have plans := apiServer_table_of_leaves leaves served
  have unsent : request.sentStatus .workloadPlan = none ∧ request.written .workloadPlan = none := by
    cases request with
    | get | list | delete => exact ⟨rfl, rfl⟩
    | updateStatus kind | create kind | update kind | patch kind =>
      have different : ¬ kind = .workloadPlan := by
        rcases leaves with reads | different
        · cases reads
        · exact fun same => different same.symm
      simp [Call.sentStatus, Call.written, different]
    | patchStatus => exact ⟨rfl, rfl⟩
  refine ⟨⟨?_, apiServer_evolves _ served, ⟨_, log.symm⟩⟩, .of_table plans⟩
  intro kept
  have recorded : actor.record request reply = none ∨
      ∃ plan, actor.record request reply = some (.read plan) := by
    cases actor with
    | pipeline => exact .inl (by simp [PlanActor.record, unsent.2])
    | runtime worker =>
      simp only [PlanActor.record, unsent.1]
      split
      next plan _ => exact .inr ⟨plan, rfl⟩
      next => exact .inl (by simp)
  rcases recorded with nothing | ⟨plan, seen⟩
  · rw [nothing] at log
    exact kept.of_same plans log
  · rw [seen] at log
    exact kept.of_read plans log

/-- A call that fails and is not logged. -/
theorem planStep_of_unchanged (store : after.store = before.store) (log : after.log = before.log) :
    PlanStep before after := by
  obtain ⟨_, _⟩ := before
  obtain ⟨_, _⟩ := after
  cases store
  cases log
  exact .refl _

/-- The pipeline creates or updates a plan. -/
theorem planStep_of_written {value : WorkloadPlan}
    (served : apiServer (.create .workloadPlan plan) before.store (.ok value) after.store ∨
      apiServer (.update .workloadPlan plan) before.store (.ok value) after.store)
    (log : after.log = .specWritten plan :: before.log) :
    PlanStep before after ∧ (PlanLog before → specAt plan.key after = some plan.spec) := by
  have evolves : before.store.Evolves .workloadPlan after.store := by
    rcases served with created | updated
    · exact apiServer_evolves _ created
    · exact apiServer_evolves _ updated
  refine ⟨⟨?_, evolves, ⟨[_], log.symm⟩⟩, ?_⟩
  · intro kept
    obtain ⟨next, found, _, mark, rows⟩ := apiServer_written kept.unmarked served
    exact kept.of_specWritten log (Store.key_of_find? found) mark rows
  · intro kept
    obtain ⟨next, found, spec, _, _⟩ := apiServer_written kept.unmarked served
    unfold specAt
    rw [found, ← spec]
    rfl

/-- A plan that the runtime holds: it was read, and whatever is stored under its
key with its version is that very plan. -/
structure Held (plan : WorkloadPlan) (logged : Logged) : Prop where
  seen : .read plan ∈ logged.log
  version : plan.metadata.resourceVersion ≤ logged.store.revision
  same : ∀ stored ∈ (logged.store.table .workloadPlan).rows,
    stored.key = plan.key →
    stored.metadata.resourceVersion = plan.metadata.resourceVersion → stored = plan

theorem Held.of_found {logged : Logged} (seen : .read plan ∈ logged.log)
    (member : plan ∈ (logged.store.table .workloadPlan).rows) : Held plan logged where
  seen := seen
  version := logged.store.stamped .workloadPlan plan member
  same _ stored keys versions := (Store.Evolves.refl _ _).eq_of_version member stored keys versions

/-- Others only store newer versions. -/
theorem Held.step (held : Held plan before) (step : PlanStep before after) : Held plan after where
  seen := step.grows.subset held.seen
  version := Nat.le_trans held.version step.evolves.revision
  same stored member keys versions := by
    rcases step.evolves.fresh stored member with old | new
    · exact held.same stored old keys versions
    · have bound := held.version
      omega

/-- The runtime writes the status of a plan it holds.  The version check makes
sure that the spec is the one it read. -/
theorem planStep_of_statusWritten {value : WorkloadPlan} (held : Held plan before)
    (metadata : sent.metadata = plan.metadata) (specs : sent.spec = plan.spec)
    (served : apiServer (.updateStatus .workloadPlan sent) before.store (.ok value) after.store)
    (log : after.log = .statusWritten sent :: before.log) :
    PlanStep before after ∧ KeepsSpecs before after := by
  have keys : sent.key = plan.key := by simp only [Resource.key, metadata]
  obtain ⟨stored, written⟩ := apiServer_statusWritten served
  obtain ⟨member, named⟩ := Store.find?_eq_some.mp written.found
  have same : stored = plan := by
    apply held.same stored member (named.trans keys)
    rw [← written.version, metadata]
  subst same
  refine ⟨⟨fun kept => ?_, apiServer_evolves _ served, ⟨[_], log.symm⟩⟩, ?_⟩
  · have seen : ∃ seen, .read seen ∈ before.log ∧ seen.key = sent.key ∧
        seen.spec = sent.spec := ⟨stored, held.seen, keys.symm, specs.symm⟩
    refine kept.of_statusWritten log seen (Store.key_of_find? written.finds)
      (written.deletionTimestamp.trans (kept.unmarked stored member))
      (written.spec.trans specs.symm) written.status ?_
    intro other otherMember
    by_cases named : other.key = sent.key
    · have found := Store.find?_eq_some.mpr ⟨otherMember, named⟩
      rw [written.finds] at found
      exact .inl (Option.some.inj found).symm
    · have found := Store.find?_eq_some.mpr ⟨otherMember, rfl⟩
      rw [written.frame _ named] at found
      exact .inr ⟨Store.mem_of_find? found, named⟩
  · intro key
    unfold specAt
    by_cases named : key = sent.key
    · rw [named, written.finds, written.found, Option.map_some, Option.map_some, written.spec]
    · rw [written.frame key named]

end ScoreOrchestrator.Runtime
