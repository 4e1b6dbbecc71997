/-
Module: Proofs.Deprovisioning
Purpose: What a Deprovision that succeeds has left of the objects of a claim, also
  while others change the store.
-/
import ScoreOrchestrator.Proofs.ProvisionedObjects

namespace ScoreOrchestrator.Provisioner

open Foundation Program

variable {kind : Kind} {key : NamespacedName} {claim : ResourceClaim}

/-- Nothing is stored under a key, or an object that only waits for its finalizers. -/
def Deleted (store : Store) (target : Kind × NamespacedName) : Prop :=
  ∀ object, store.find? target.1 target.2 = some object → object.isBeingDeleted = true

/-- A delete is answered as if there were nothing to delete only if there is nothing. -/
def DeletesTruthfully (event : ApiEvent) : Prop :=
  ∀ kind key, event.request.deletes kind = some key →
    ∀ fault, event.reply = .error fault → fault.isNotFound = true →
      event.before.find? kind key = none

/-! ### One delete -/

section

variable {before after : Store} {kind : Kind} {key : NamespacedName}

/-- Without finalizers a deleted object is gone. -/
theorem Deleted.find?_eq_none {store : Store} {target : Kind × NamespacedName}
    (deleted : Deleted store target)
    (bare : ∀ object, store.find? target.1 target.2 = some object →
      object.metadata.finalizers = []) : store.find? target.1 target.2 = none := by
  cases found : store.find? target.1 target.2 with
  | none => rfl
  | some object =>
    have live := store.live _ object (Store.mem_of_find? found)
    have marked := deleted object found
    simp only [Resource.isReleased, Bool.and_eq_false_iff, bare object found] at live
    simp only [Resource.isBeingDeleted] at marked
    rw [marked] at live
    simp at live

/-- A delete does not bring back what was deleted. -/
theorem Deleted.delete {target : Kind × NamespacedName} {reply : Except GoError Unit}
    (deleted : Deleted before target) (served : apiServer (.delete kind key) before reply after) :
    Deleted after target := by
  intro object found
  by_cases same : target = (kind, key)
  · subst same
    rcases (apiServer_step served).of_find? found with old | ⟨_, ⟨stored, _, rfl⟩, rfl⟩
    · exact deleted object old
    · exact stored.isBeingDeleted_markedForDeletion _
  · have kept : after.find? target.1 target.2 = before.find? target.1 target.2 := by
      apply apiServer_find?_of_target_ne _ served
      intro aimed
      exact same (Option.some.inj aimed).symm
    rw [kept] at found
    exact deleted object found

/-- A delete that succeeds has deleted its object. -/
theorem deleted_of_delete (served : apiServer (.delete kind key) before (.ok ()) after) :
    Deleted after (kind, key) := by
  intro object found
  have carriedOut := serve_of_ok served
  simp only [serve] at carriedOut
  split at carriedOut
  · cases carriedOut
  next stored present =>
    split at carriedOut
    · cases carriedOut
      obtain ⟨member, named⟩ := Store.find?_eq_some.mp found
      exact absurd named (Store.mem_remove.mp member).2
    · cases carriedOut
      have keys : (stored.markedForDeletion before.revision).key = key :=
        (stored.key_markedForDeletion _).trans (Store.key_of_find? present)
      rw [← keys] at present found
      obtain ⟨version, rfl⟩ := Store.stamp_of_find?_replace rfl present found
      exact stored.isBeingDeleted_markedForDeletion _

end

/-- A delete fails only where there is nothing to delete. -/
theorem find?_eq_none_of_delete_error {store : Store} {fault : GoError}
    (failed : (serve (.delete kind key) store).1 = .error fault) : store.find? kind key = none := by
  cases found : store.find? kind key with
  | none => rfl
  | some object =>
    simp only [serve, found] at failed
    split at failed <;> cases failed

/-- A server that carries out its calls answers deletes truthfully. -/
theorem deletesTruthfully_of_healthyServer {α : Type} {program : Client α} {before after : Store}
    {events : List ApiEvent} {outcome : Outcome α}
    (run : program.Runs healthyServer before events outcome after) :
    ∀ event ∈ events, DeletesTruthfully event := by
  induction run with
  | done | crash | interrupted => simp
  | @call answer request _ before middle _ reply _ _ served _ ih =>
    intro event member
    rcases List.mem_cons.mp member with rfl | later
    · intro kind key deletes fault failed _
      cases request with
      | delete other otherKey =>
        simp only [Call.deletes] at deletes
        split at deletes
        next same =>
          subst same
          cases deletes
          apply find?_eq_none_of_delete_error
          exact (congrArg Prod.fst served).trans failed
        · cases deletes
      | _ => cases deletes
    · exact ih event later

/-- With a server that carries out its calls a delete leaves nothing to do. -/
theorem exists_run_deleteIfPresent (kind : Kind) (noun : String) (key : NamespacedName)
    (before : Store) :
    ∃ events after, (deleteIfPresent kind noun key).Runs healthyServer before
      events (.returned (.ok ())) after := by
  cases answered : serve (.delete kind key) before with
  | mk reply after =>
    cases reply with
    | ok _ => exact ⟨_, after, .call answered (.done _ _)⟩
    | error fault =>
      have absent := find?_eq_none_of_delete_error (congrArg Prod.fst answered)
      have missing : fault = .objectNotFound kind key := by
        simp only [serve, absent] at answered
        cases answered
        rfl
      subst missing
      exact ⟨_, after, .call answered (.done _ _)⟩

theorem exists_run_deprovision {random : RandomText} {strategy : Strategy}
    (selected : strategyOf random claim = .ok strategy) (before : Store) :
    ∃ events after, (strategy.deprovision claim).Runs healthyServer before events
      (.returned (.ok ())) after := by
  rcases strategyOf_cases selected with ⟨_, rfl⟩ | ⟨_, rfl⟩ | ⟨_, rfl⟩
  · obtain ⟨_, first, setRun⟩ := exists_run_deleteIfPresent .statefulSet
      "postgres statefulset" (keyBeside claim (PostgresStrategy.statefulSetName claim)) before
    obtain ⟨_, second, serviceRun⟩ := exists_run_deleteIfPresent .service
      "postgres service" (keyBeside claim (PostgresStrategy.serviceName claim)) first
    obtain ⟨_, third, secretRun⟩ := exists_run_deleteIfPresent .secret
      "postgres secret" (keyBeside claim (PostgresStrategy.secretName claim)) second
    exact ⟨_, third, setRun.orReturn (serviceRun.orReturn secretRun)⟩
  · exact exists_run_deleteIfPresent _ _ _ before
  · exact exists_run_deleteIfPresent _ _ _ before

/-! ### Deprovision among others -/

/-- The terms under which the objects of a claim can be deleted: the state has a store
that the API server works on, nobody brings back a deleted object, deletes are answered
truthfully, and while `holds` does, a delete of one of the objects keeps its promise. -/
structure CleanupTerms {State : Type} (view : State → Store)
    (contract : Contract Call GoError State) (objects : List (Kind × NamespacedName))
    (holds : State → Prop) : Prop where
  serves : ∀ {answer : Type} {request : Call answer} {before reply after},
    contract.service request before reply after →
      apiServer request (view before) reply (view after)
  stable : ∀ {before after}, contract.rely before after → holds before → holds after
  keeps : ∀ {before after}, contract.rely before after → ∀ target ∈ objects,
    Deleted (view before) target → Deleted (view after) target
  truthful : ∀ {history event}, contract.admits history event →
    DeletesTruthfully (event.map view)
  promise : ∀ {kind key history before reply after}, (kind, key) ∈ objects →
    holds before → contract.service (.delete kind key) before reply after →
    contract.guarantee history { request := .delete kind key, reply, before, after } ∧
      holds after

section

variable {State : Type} {view : State → Store} {contract : Contract Call GoError State}
  {objects : List (Kind × NamespacedName)} {holds : State → Prop}
  {history : List (EventOn State)} {state : State}

/-- After a successful step its object is deleted, like those before it. -/
theorem deleteIfPresent_safe (terms : CleanupTerms view contract objects holds) {noun : String}
    (member : (kind, key) ∈ objects) {already : List (Kind × NamespacedName)}
    (within : already ⊆ objects) (starts : holds state)
    (deleted : ∀ target ∈ already, Deleted (view state) target) :
    Safe contract
      (fun result _ later => holds later ∧
        (∀ target ∈ already, Deleted (view later) target) ∧
        (result = .ok () → Deleted (view later) (kind, key)))
      (deleteIfPresent kind noun key) history state := by
  intro before moved reply after served admitted
  have started := terms.stable moved starts
  obtain ⟨promised, onward⟩ := terms.promise member started served
  have serves := terms.serves served
  have still : ∀ target ∈ already, Deleted (view after) target := fun target listed =>
    (terms.keeps moved target (within listed) (deleted target listed)).delete serves
  have finally_ : ∀ {result : Except GoError Unit},
      (result = .ok () → Deleted (view after) (kind, key)) →
      ∀ later, contract.rely after later → holds later ∧
        (∀ target ∈ already, Deleted (view later) target) ∧
        (result = .ok () → Deleted (view later) (kind, key)) := by
    intro result gone later further
    exact ⟨terms.stable further onward,
      fun target listed => terms.keeps further target (within listed) (still target listed),
      fun ok => terms.keeps further _ member (gone ok)⟩
  refine ⟨promised, ?_⟩
  cases reply with
  | ok _ => exact finally_ fun _ => deleted_of_delete serves
  | error fault =>
    simp only [done_bind]
    split
    next missing =>
      refine finally_ fun _ object found => ?_
      have absent := terms.truthful admitted kind key
        (by simp [Event.map, Call.deletes]) fault rfl missing
      have same : view after = view before := apiServer_of_error serves
      rw [same, show (view before).find? kind key = none from absent] at found
      cases found
    · exact finally_ nofun

/-- A strategy with one object deletes it. -/
theorem deleteOnly_safe {noun : String} (terms : CleanupTerms view contract [(kind, key)] holds)
    (starts : holds state) :
    Safe contract
      (fun result _ later => holds later ∧
        (result = .ok () → ∀ target ∈ [(kind, key)], Deleted (view later) target))
      (deleteIfPresent kind noun key) history state := by
  refine (deleteIfPresent_safe terms (.head _) (List.nil_subset _) starts nofun).mono ?_
  rintro result history later ⟨held, _, gone⟩
  exact ⟨held, fun ok => List.forall_mem_singleton.mpr (gone ok)⟩

/-- The three deletes of Postgres: what the earlier ones deleted stays deleted. -/
theorem PostgresStrategy.deprovision_deletes
    (terms : CleanupTerms view contract (PostgresStrategy.objects claim) holds)
    (starts : holds state) :
    Safe contract
      (fun result _ later => holds later ∧
        (result = .ok () →
          ∀ target ∈ PostgresStrategy.objects claim, Deleted (view later) target))
      (PostgresStrategy.deprovision claim) history state := by
  have sets := PostgresStrategy.statefulSet_mem claim
  have services := PostgresStrategy.service_mem claim
  have secrets := PostgresStrategy.secret_mem claim
  apply Safe.orReturn
  refine (deleteIfPresent_safe terms sets (List.nil_subset _) starts nofun).mono ?_
  rintro (fault | _) history later ⟨held, _, set⟩
  · exact fun last moved => ⟨terms.stable moved held, nofun⟩
  apply Safe.orReturn
  refine (deleteIfPresent_safe terms services (List.cons_subset.mpr ⟨sets, List.nil_subset _⟩)
    held (List.forall_mem_singleton.mpr (set rfl))).mono ?_
  rintro (fault | _) history later ⟨held, already, service⟩
  · exact fun last moved => ⟨terms.stable moved held, nofun⟩
  refine (deleteIfPresent_safe terms secrets
    (List.cons_subset.mpr ⟨services, List.cons_subset.mpr ⟨sets, List.nil_subset _⟩⟩) held
    (List.forall_mem_cons.mpr ⟨service rfl, already⟩)).mono ?_
  rintro result history later ⟨held, already, secret⟩
  refine ⟨held, fun ok target listed => ?_⟩
  simp only [PostgresStrategy.objects, List.mem_cons, List.not_mem_nil,
    or_false] at listed
  rcases listed with rfl | rfl | rfl
  · exact already _ (.tail _ (.head _))
  · exact already _ (.head _)
  · exact secret ok

/-- A Deprovision that succeeds has deleted all objects of the claim. -/
theorem deprovision_safe {random : RandomText} {strategy : Strategy}
    (selected : strategyOf random claim = .ok strategy)
    (terms : CleanupTerms view contract (objectsOf claim) holds) (starts : holds state) :
    Safe contract
      (fun result _ later => holds later ∧
        (result = .ok () → ∀ target ∈ objectsOf claim, Deleted (view later) target))
      (strategy.deprovision claim) history state := by
  rcases strategyOf_cases selected with ⟨type, rfl⟩ | ⟨type, rfl⟩ | ⟨type, rfl⟩
  · rw [objectsOf_postgres type] at terms ⊢
    exact PostgresStrategy.deprovision_deletes terms starts
  · rw [objectsOf_redis type] at terms ⊢
    exact deleteOnly_safe terms starts
  · rw [objectsOf_secret type] at terms ⊢
    exact deleteOnly_safe terms starts

end

end ScoreOrchestrator.Provisioner
