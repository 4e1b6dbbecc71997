/-
Module: Api.ServerLaws
Purpose: What each call of the API server leaves alone, keeps, or guarantees when
  it succeeds.
Main exports: serve_table_of_ne, Store.Evolves, Store.AllStatuses, truthfulServer_get, OnlyReads
-/
import ScoreOrchestrator.Api.Server

namespace ScoreOrchestrator

open Foundation

variable {other : Kind} {answer : Type} {kind : Kind} {key : NamespacedName}
  {reply : Except GoError answer} {α : Type}

/-! ### What a call leaves alone -/

theorem Store.remove_table_of_ne (store : Store) (key : NamespacedName) (different : other ≠ kind) :
    (store.remove kind key).table other = store.table other :=
  Store.write_table_of_ne different

theorem Store.commit_table_of_ne (store : Store) (object : kind.Object) (different : other ≠ kind) :
    (store.commit kind object).2.table other = store.table other := by
  simp only [Store.commit]
  split
  · exact store.remove_table_of_ne _ different
  · exact Store.write_table_of_ne different

variable {store : Store}

/-- The objects after a removal are the others. -/
theorem Store.mem_remove {object : kind.Object} :
    object ∈ ((store.remove kind key).table kind).rows ↔
      object ∈ (store.table kind).rows ∧ object.key ≠ key := by
  simp [Store.remove, Table.mem_erase]

/-- The objects after a commit are the others and the committed one, unless it
was released. -/
theorem Store.mem_commit {next object : kind.Object} :
    object ∈ ((store.commit kind next).2.table kind).rows ↔
      (object = Store.stamp (store.revision + 1) next ∧ next.isReleased = false) ∨
        (object ∈ (store.table kind).rows ∧ object.key ≠ next.key) := by
  simp only [Store.commit]
  split
  next released =>
    have gone : next.isReleased = true := released
    simp [Store.mem_remove, gone]
  next kept =>
    have stays : next.isReleased = false := Bool.eq_false_iff.mpr kept
    rw [Store.write_table_self, Table.mem_put]
    simp only [stays, and_true]
    rfl

theorem Store.find?_eq_some {object : kind.Object} :
    store.find? kind key = some object ↔ object ∈ (store.table kind).rows ∧ object.key = key :=
  Table.find?_eq_some

theorem Store.mem_of_find? {object : kind.Object} (found : store.find? kind key = some object) :
    object ∈ (store.table kind).rows :=
  (find?_eq_some.mp found).1

theorem Store.key_of_find? {object : kind.Object} (found : store.find? kind key = some object) :
    object.key = key :=
  (find?_eq_some.mp found).2

/-- Equal tables hold the same objects. -/
theorem Store.find?_of_table {before after : Store} (same : after.table kind = before.table kind) :
    after.find? kind key = before.find? kind key := by
  rw [find?, find?, same]

theorem Store.find?_empty (kind : Kind) (key : NamespacedName) :
    Store.empty.find? kind key = none := rfl

/-- A committed object is found under its key. -/
theorem Store.find?_commit_self (store : Store) (kind : Kind) {next : kind.Object}
    (held : next.isReleased = false) :
    (store.commit kind next).2.find? kind next.key = some (Store.stamp (store.revision + 1) next) :=
  Store.find?_eq_some.mpr ⟨Store.mem_commit.mpr (.inl ⟨rfl, held⟩), rfl⟩

theorem Store.find?_commit_of_ne {next : kind.Object} (different : key ≠ next.key) :
    (store.commit kind next).2.find? kind key = store.find? kind key := by
  apply Option.ext
  intro object
  rw [Store.find?_eq_some, Store.find?_eq_some, Store.mem_commit]
  constructor
  · rintro ⟨⟨rfl, _⟩ | ⟨member, _⟩, rfl⟩
    · exact absurd rfl different
    · exact ⟨member, rfl⟩
  · rintro ⟨member, rfl⟩
    exact ⟨.inr ⟨member, different⟩, rfl⟩

theorem Store.find?_remove_of_ne {unwanted : NamespacedName} (different : key ≠ unwanted) :
    (store.remove kind unwanted).find? kind key = store.find? kind key := by
  unfold Store.find? Store.remove
  rw [Store.write_table_self]
  exact Table.find?_erase_of_ne _ different

theorem Store.replace_cases (store : Store) (kind : Kind) (stored next : kind.Object) :
    (next = stored ∧ store.replace kind stored next = (.ok stored, store)) ∨
      (next ≠ stored ∧ store.replace kind stored next =
        (.ok (store.commit kind next).1, (store.commit kind next).2)) := by
  by_cases same : next = stored
  · exact .inl ⟨same, by simp [Store.replace, same]⟩
  · exact .inr ⟨same, by simp [Store.replace, same]⟩

theorem Store.of_replace {stored next : kind.Object} {reply : Except GoError kind.Object}
    {after : Store} (replaced : store.replace kind stored next = (reply, after)) :
    (next = stored ∧ reply = .ok stored ∧ after = store) ∨
      (next ≠ stored ∧ reply = .ok (store.commit kind next).1 ∧
        after = (store.commit kind next).2) := by
  rcases store.replace_cases kind stored next with ⟨same, equal⟩ | ⟨different, equal⟩
  · cases equal.symm.trans replaced
    exact .inl ⟨same, rfl, rfl⟩
  · cases equal.symm.trans replaced
    exact .inr ⟨different, rfl, rfl⟩

variable {request : Call answer}

/-- Reading changes nothing. -/
theorem serve_of_isRead (reads : request.isRead) (store : Store) :
    (serve request store).2 = store := by
  cases request with
  | get kind key =>
    simp only [serve]
    split <;> rfl
  | list kind selector => rfl
  | _ => cases reads

variable {before after : Store}

/-- A call that fails changes nothing. -/
theorem serve_of_error {fault : GoError} (served : serve request before = (.error fault, after)) :
    after = before := by
  have replaced : ∀ (kind : Kind) (stored next : kind.Object),
      before.replace kind stored next ≠ (.error fault, after) := by
    intro kind stored next same
    rcases Store.of_replace same with ⟨_, equal, _⟩ | ⟨_, equal, _⟩ <;> cases equal
  cases request <;>
    simp only [serve, Store.replaceRead, Store.replaceAny] at served <;>
    (repeat' split at served) <;>
    first
      | exact absurd served (replaced _ _ _)
      | (cases served; rfl)
      | cases served

/-- The object that a call is about; a list is about none in particular. -/
def Call.target {answer : Type} : Call answer → Option (Kind × NamespacedName)
  | .get kind key | .delete kind key => some (kind, key)
  | .create kind object | .update kind object | .updateStatus kind object
  | .patch kind _ object | .patchStatus kind _ object => some (kind, object.key)
  | .list _ _ => none

theorem Call.kind_of_target {target : Kind × NamespacedName}
    (about : request.target = some target) : request.kind = target.1 := by
  cases request with
  | list => cases about
  | get | create | update | updateStatus | patch | patchStatus | delete =>
    cases about
    rfl

section

variable {Spec Status : Type} (now : Time) (stored : Resource Spec Status)

@[simp] theorem Resource.key_markedForDeletion :
    (stored.markedForDeletion now).key = stored.key := by
  unfold markedForDeletion
  split <;> rfl

@[simp] theorem Resource.spec_markedForDeletion :
    (stored.markedForDeletion now).spec = stored.spec := by
  unfold markedForDeletion
  split <;> rfl

@[simp] theorem Resource.status_markedForDeletion :
    (stored.markedForDeletion now).status = stored.status := by
  unfold markedForDeletion
  split <;> rfl

@[simp] theorem Resource.finalizers_markedForDeletion :
    (stored.markedForDeletion now).metadata.finalizers = stored.metadata.finalizers := by
  unfold markedForDeletion
  split <;> rfl

@[simp] theorem Resource.isBeingDeleted_markedForDeletion :
    (stored.markedForDeletion now).isBeingDeleted = true := by
  unfold markedForDeletion
  split
  next marked => exact marked
  · rfl

end

/-- The version of an object that a call computes, from nothing or from what is stored. -/
def Call.Computes {answer : Type} (store : Store) :
    (request : Call answer) → request.kind.Object → Prop
  | .get _ _, _ | .list _ _, _ => False
  | .create kind object, next =>
    store.find? kind object.key = none ∧ next = object.created store.revision
  | .update kind object, next => ∃ stored, store.find? kind object.key = some stored ∧
    object.metadata.resourceVersion = stored.metadata.resourceVersion ∧
    next = stored.updatedBy object
  | .updateStatus kind object, next => ∃ stored, store.find? kind object.key = some stored ∧
    object.metadata.resourceVersion = stored.metadata.resourceVersion ∧
    next = stored.statusUpdatedBy object
  | .patch kind base object, next => ∃ stored, store.find? kind object.key = some stored ∧
    next = Resource.patchedBy kind base object stored
  | .patchStatus kind base object, next => ∃ stored, store.find? kind object.key = some stored ∧
    next = Resource.statusPatchedBy kind base object stored
  | .delete kind key, next => ∃ stored, store.find? kind key = some stored ∧
    next = stored.markedForDeletion store.revision

/-- What a call can do to the store: nothing, or it drops the object that it is about, or
it commits what it computes. -/
inductive Store.Step (store : Store) {answer : Type} (request : Call answer) : Store → Prop
  | unchanged : Step store request store
  | removed {key : NamespacedName} (about : request.target = some (request.kind, key)) :
    Step store request (store.remove request.kind key)
  | committed {next : request.kind.Object} (computes : request.Computes store next) :
    Step store request (store.commit request.kind next).2

theorem Store.step_replace {stored next : request.kind.Object}
    (computes : request.Computes store next) :
    store.Step request (store.replace request.kind stored next).2 := by
  rcases store.replace_cases _ stored next with ⟨_, equal⟩ | ⟨_, equal⟩
  · rw [equal]
    exact .unchanged
  · rw [equal]
    exact .committed computes

theorem serve_step (request : Call answer) (store : Store) :
    store.Step request (serve request store).2 := by
  cases request with
  | get kind key =>
    rw [serve_of_isRead rfl]
    exact .unchanged
  | list kind selector => exact .unchanged
  | create kind object =>
    simp only [serve]
    split
    · exact .unchanged
    next absent =>
      have computes : (Call.create kind object).Computes store (object.created store.revision) :=
        ⟨absent, rfl⟩
      exact .committed computes
  | update kind object | updateStatus kind object =>
    simp only [serve, Store.replaceRead]
    split
    · exact .unchanged
    next stored found =>
      split
      next version => exact Store.step_replace ⟨stored, found, version, rfl⟩
      next => exact .unchanged
  | patch kind base modified | patchStatus kind base modified =>
    simp only [serve, Store.replaceAny]
    split
    · exact .unchanged
    next stored found => exact Store.step_replace ⟨stored, found, rfl⟩
  | delete kind key =>
    simp only [serve]
    split
    · exact .unchanged
    next stored found =>
      split
      · exact .removed rfl
      · exact Store.step_replace ⟨stored, found, rfl⟩

/-- The two things a call can do. -/
theorem apiServer_cases (served : apiServer request before reply after) :
    serve request before = (reply, after) ∨ (∃ fault, reply = .error fault) ∧ after = before :=
  served

theorem apiServer_step (served : apiServer request before reply after) :
    before.Step request after := by
  rcases apiServer_cases served with served | ⟨_, rfl⟩
  · have step := serve_step request before
    rw [served] at step
    exact step
  · exact .unchanged

theorem Call.Computes.target {next : request.kind.Object} (computes : request.Computes store next) :
    request.target = some (request.kind, next.key) := by
  cases request with
  | get | list => exact computes.elim
  | create kind object =>
    obtain ⟨_, rfl⟩ := computes
    rfl
  | update kind object | updateStatus kind object =>
    obtain ⟨stored, found, _, rfl⟩ := computes
    exact congrArg (fun key => some (kind, key)) (Store.key_of_find? found).symm
  | patch kind base object | patchStatus kind base object =>
    obtain ⟨stored, found, rfl⟩ := computes
    exact congrArg (fun key => some (kind, key)) (Store.key_of_find? found).symm
  | delete kind key =>
    obtain ⟨stored, found, rfl⟩ := computes
    have named := (stored.key_markedForDeletion store.revision).trans (Store.key_of_find? found)
    exact congrArg (fun key => some (kind, key)) named.symm

/-- A call on one kind leaves the objects of the others alone. -/
theorem Store.Step.table_of_ne (step : before.Step request after)
    (different : other ≠ request.kind) : after.table other = before.table other := by
  cases step with
  | unchanged => rfl
  | removed => exact before.remove_table_of_ne _ different
  | committed => exact before.commit_table_of_ne _ different

/-- A call on one object leaves all others alone. -/
theorem Store.Step.find?_of_target_ne (step : before.Step request after)
    (different : request.target ≠ some (kind, key)) :
    after.find? kind key = before.find? kind key := by
  by_cases about : kind = request.kind
  · subst about
    cases step with
    | unchanged => rfl
    | removed target => exact Store.find?_remove_of_ne fun same => different (same ▸ target)
    | committed computes =>
      exact Store.find?_commit_of_ne fun same => different (same ▸ computes.target)
  · exact Store.find?_of_table (step.table_of_ne about)

/-! ### Versions -/

/-- Every object after is an old one or has a version of its own. -/
structure Store.Evolves (kind : Kind) (before after : Store) : Prop where
  revision : before.revision ≤ after.revision
  fresh : ∀ object ∈ (after.table kind).rows, object ∈ (before.table kind).rows ∨
    before.revision < object.metadata.resourceVersion

namespace Store.Evolves

variable {kind : Kind} {before middle after : Store}

theorem refl (kind : Kind) (store : Store) : store.Evolves kind store :=
  ⟨Nat.le_refl _, fun _ member => .inl member⟩

theorem trans (first : before.Evolves kind middle) (second : middle.Evolves kind after) :
    before.Evolves kind after := by
  refine ⟨Nat.le_trans first.revision second.revision, ?_⟩
  intro object member
  rcases second.fresh object member with old | new
  · exact first.fresh object old
  · exact .inr (Nat.lt_of_le_of_lt first.revision new)

/-- A version identifies what was stored under it. -/
theorem eq_of_version (evolves : before.Evolves kind after) {old new : kind.Object}
    (oldMember : old ∈ (before.table kind).rows) (newMember : new ∈ (after.table kind).rows)
    (keys : new.key = old.key)
    (versions : new.metadata.resourceVersion = old.metadata.resourceVersion) : new = old := by
  rcases evolves.fresh new newMember with member | later
  · exact (before.table kind).eq_of_key_eq member oldMember keys
  · have bound := before.stamped kind old oldMember
    omega

end Store.Evolves

theorem Store.evolves_remove (store : Store) (kind other : Kind) (key : NamespacedName) :
    store.Evolves other (store.remove kind key) := by
  refine ⟨Nat.le_succ _, fun object member => .inl ?_⟩
  by_cases same : other = kind
  · subst same
    exact (Store.mem_remove.mp member).1
  · rw [store.remove_table_of_ne key same] at member
    exact member

theorem Store.evolves_commit (store : Store) (other : Kind) (next : kind.Object) :
    store.Evolves other (store.commit kind next).2 := by
  have counted : (store.commit kind next).2.revision = store.revision + 1 := by
    simp only [Store.commit]
    split <;> rfl
  refine ⟨by omega, fun object member => ?_⟩
  by_cases same : other = kind
  · subst same
    rcases Store.mem_commit.mp member with ⟨rfl, _⟩ | ⟨old, _⟩
    · exact .inr (Nat.lt_succ_self _)
    · exact .inl old
  · rw [store.commit_table_of_ne next same] at member
    exact .inl member

/-- Whatever a call does, the objects it leaves are old ones or newer versions. -/
theorem Store.Step.evolves (step : before.Step request after) (kind : Kind) :
    before.Evolves kind after := by
  cases step with
  | unchanged => exact .refl kind before
  | removed => exact before.evolves_remove _ kind _
  | committed => exact before.evolves_commit kind _

section

variable {object : request.kind.Object} (step : before.Step request after)
include step

/-- What is stored after a call was there or is what the call computes. -/
theorem Store.Step.of_mem (member : object ∈ (after.table request.kind).rows) :
    object ∈ (before.table request.kind).rows ∨
      ∃ next, request.Computes before next ∧ object = Store.stamp (before.revision + 1) next := by
  cases step with
  | unchanged => exact .inl member
  | removed => exact .inl (Store.mem_remove.mp member).1
  | committed computes =>
    rcases Store.mem_commit.mp member with ⟨written, _⟩ | ⟨old, _⟩
    · exact .inr ⟨_, computes, written⟩
    · exact .inl old

theorem Store.Step.of_find? (found : after.find? request.kind key = some object) :
    before.find? request.kind key = some object ∨
      ∃ next, request.Computes before next ∧ object = Store.stamp (before.revision + 1) next := by
  obtain ⟨member, named⟩ := Store.find?_eq_some.mp found
  exact (step.of_mem member).imp_left fun old => Store.find?_eq_some.mpr ⟨old, named⟩

end

/-! ### Properties of stored statuses -/

/-- Every stored object of a kind has a status with the property. -/
def Store.AllStatuses (store : Store) (kind : Kind) (holds : kind.Status → Prop) : Prop :=
  ∀ object ∈ (store.table kind).rows, holds object.status

/-- A call writes only statuses with the property.  Calls that write no status
of the kind qualify as they are. -/
def Call.KeepsStatuses (wanted : Kind) (holds : wanted.Status → Prop) {answer : Type} :
    Call answer → Prop
  | .updateStatus kind object =>
    ∀ same : kind = wanted, holds (same ▸ object : wanted.Object).status
  | .patchStatus kind base modified =>
    ∀ same : kind = wanted, ∀ status, holds status →
      holds (mergeStatus wanted (same ▸ base : wanted.Object).status
        (same ▸ modified : wanted.Object).status status)
  | _ => True

/-- A call that writes only good statuses keeps all of them good, if the empty
status of a new object is. -/
theorem Store.Step.allStatuses {holds : kind.Status → Prop} (step : before.Step request after)
    (fresh : holds default) (keeps : request.KeepsStatuses kind holds)
    (all : before.AllStatuses kind holds) : after.AllStatuses kind holds := by
  intro object member
  by_cases about : kind = request.kind
  · subst about
    rcases step.of_mem member with old | ⟨next, computes, rfl⟩
    · exact all object old
    cases request with
    | get | list => exact computes.elim
    | create =>
      obtain ⟨_, rfl⟩ := computes
      exact fresh
    | update =>
      obtain ⟨stored, found, _, rfl⟩ := computes
      exact all stored (Store.mem_of_find? found)
    | updateStatus =>
      obtain ⟨stored, found, _, rfl⟩ := computes
      exact keeps rfl
    | patch =>
      obtain ⟨stored, found, rfl⟩ := computes
      exact all stored (Store.mem_of_find? found)
    | patchStatus =>
      obtain ⟨stored, found, rfl⟩ := computes
      exact keeps rfl _ (all stored (Store.mem_of_find? found))
    | delete =>
      obtain ⟨stored, found, rfl⟩ := computes
      have kept := all stored (Store.mem_of_find? found)
      rwa [← stored.status_markedForDeletion before.revision] at kept
  · rw [step.table_of_ne about] at member
    exact all object member

theorem apiServer_of_isRead (reads : request.isRead)
    (served : apiServer request before reply after) : after = before := by
  rcases apiServer_cases served with served | ⟨_, same⟩
  · rw [← serve_of_isRead reads before, served]
  · exact same

theorem apiServer_of_error {fault : GoError}
    (served : apiServer request before (.error fault) after) : after = before := by
  rcases apiServer_cases served with served | ⟨_, same⟩
  · exact serve_of_error served
  · exact same

theorem apiServer_evolves (kind : Kind) (served : apiServer request before reply after) :
    before.Evolves kind after :=
  (apiServer_step served).evolves kind

/-- A call that does not write objects of a kind. -/
def Call.Leaves (kind : Kind) {answer : Type} (request : Call answer) : Prop :=
  request.isRead ∨ kind ≠ request.kind

theorem apiServer_table_of_leaves (leaves : request.Leaves kind)
    (served : apiServer request before reply after) : after.table kind = before.table kind := by
  rcases leaves with reads | different
  · rw [apiServer_of_isRead reads served]
  · exact (apiServer_step served).table_of_ne different

theorem apiServer_find?_of_target_ne (different : request.target ≠ some (kind, key))
    (served : apiServer request before reply after) :
    after.find? kind key = before.find? kind key :=
  (apiServer_step served).find?_of_target_ne different

variable {events : List ApiEvent}

/-- A program that does not write objects of a kind leaves them alone. -/
theorem table_of_makes_leaves {program : Client α} {outcome : Outcome α}
    (makes : program.Makes fun _ request => request.Leaves kind)
    (run : program.Runs apiServer before events outcome after) :
    after.table kind = before.table kind := by
  refine run.of_makes (fun before after => after.table kind = before.table kind)
    ?_ ?_ ?_ makes
  · exact fun _ => rfl
  · exact fun first second => second.trans first
  · exact fun _ _ leaves _ _ _ served => apiServer_table_of_leaves leaves served

/-- A program that does not aim at an object leaves it alone. -/
theorem find?_of_makes_target_ne {program : Client α} {outcome : Outcome α}
    (makes : program.Makes fun _ request => request.target ≠ some (kind, key))
    (run : program.Runs apiServer before events outcome after) :
    after.find? kind key = before.find? kind key := by
  refine run.of_makes (fun before after => after.find? kind key = before.find? kind key)
    ?_ ?_ ?_ makes
  · exact fun _ => rfl
  · exact fun first second => second.trans first
  · exact fun _ _ different _ _ _ served => apiServer_find?_of_target_ne different served

/-! ### Calls that succeed -/

theorem serve_of_ok {value : answer} (served : apiServer request before (.ok value) after) :
    serve request before = (.ok value, after) := by
  rcases apiServer_cases served with served | ⟨⟨_, failed⟩, _⟩
  · exact served
  · cases failed

/-- A successful `get` returns the stored object. -/
theorem apiServer_get_ok {object : kind.Object}
    (served : apiServer (.get kind key) before (.ok object) after) :
    before.find? kind key = some object ∧ after = before := by
  have carriedOut := serve_of_ok served
  simp only [serve] at carriedOut
  split at carriedOut
  next found stored =>
    cases carriedOut
    exact ⟨stored, rfl⟩
  next => cases carriedOut

theorem serve_get_some {object : kind.Object} (found : store.find? kind key = some object) :
    serve (.get kind key) store = (.ok object, store) := by
  simp only [serve, found]

theorem serve_get_none (absent : store.find? kind key = none) :
    serve (.get kind key) store = (.error (.objectNotFound kind key), store) := by
  simp only [serve, absent]

theorem Resource.updatedBy_self {Spec Status : Type} [DecidableEq Spec]
    (object : Resource Spec Status) : object.updatedBy object = object := by
  simp [Resource.updatedBy]

section

variable {kind : Kind} {object : kind.Object} {store : Store}
  (found : store.find? kind object.key = some object)
include found

/-- Writing back what is stored is no write. -/
theorem serve_update_self : serve (.update kind object) store = (.ok object, store) := by
  simp [serve, Store.replaceRead, found, Store.replace, object.updatedBy_self]

theorem serve_updateStatus_self :
    serve (.updateStatus kind object) store = (.ok object, store) := by
  have same : object.statusUpdatedBy object = object := rfl
  simp [serve, Store.replaceRead, found, Store.replace, same]

end

/-- A successful `create` stores a new object under a free key. -/
theorem apiServer_create_ok {object created : kind.Object}
    (served : apiServer (.create kind object) before (.ok created) after) :
    before.find? kind object.key = none ∧
      (created, after) = before.commit kind (object.created before.revision) := by
  have carriedOut := serve_of_ok served
  simp only [serve] at carriedOut
  split at carriedOut
  next => cases carriedOut
  next absent =>
    cases carriedOut
    exact ⟨absent, rfl⟩

/-- A write under optimistic locking that succeeds replaces the version that was sent. -/
theorem Store.replaceRead_ok {object updated : kind.Object} {next : kind.Object → kind.Object}
    (replaced : before.replaceRead kind object next = (.ok updated, after)) :
    ∃ stored, before.find? kind object.key = some stored ∧
      object.metadata.resourceVersion = stored.metadata.resourceVersion ∧
      before.replace kind stored (next stored) = (.ok updated, after) := by
  unfold Store.replaceRead at replaced
  split at replaced
  next => cases replaced
  next stored found =>
    split at replaced
    next same => exact ⟨stored, found, same, replaced⟩
    next => cases replaced

/-- A successful `update` replaces the version that the client sent. -/
theorem apiServer_update_ok {object updated : kind.Object}
    (served : apiServer (.update kind object) before (.ok updated) after) :
    ∃ stored, before.find? kind object.key = some stored ∧
      object.metadata.resourceVersion = stored.metadata.resourceVersion ∧
      before.replace kind stored (stored.updatedBy object) = (.ok updated, after) :=
  Store.replaceRead_ok (serve_of_ok served)

/-- Where nothing is marked for deletion, an object that a `create` or `update`
wrote is stored with the spec that was sent. -/
theorem apiServer_written {object value : kind.Object}
    (unmarked : ∀ stored ∈ (before.table kind).rows, stored.metadata.deletionTimestamp = none)
    (served : apiServer (.create kind object) before (.ok value) after ∨
      apiServer (.update kind object) before (.ok value) after) :
    ∃ next, after.find? kind object.key = some next ∧ next.spec = object.spec ∧
      next.metadata.deletionTimestamp = none ∧
      ∀ other ∈ (after.table kind).rows, other = next ∨ other ∈ (before.table kind).rows := by
  have committed : ∀ next : kind.Object, next.key = object.key →
      next.spec = object.spec → next.metadata.deletionTimestamp = none →
      after = (before.commit kind next).2 →
      ∃ next, after.find? kind object.key = some next ∧ next.spec = object.spec ∧
        next.metadata.deletionTimestamp = none ∧
        ∀ other ∈ (after.table kind).rows,
          other = next ∨ other ∈ (before.table kind).rows := by
    intro next keys specs mark written
    subst written
    have held : next.isReleased = false := by simp [Resource.isReleased, mark]
    have found := before.find?_commit_self kind held
    rw [keys] at found
    refine ⟨_, found, specs, mark, fun other member => ?_⟩
    rcases Store.mem_commit.mp member with ⟨rfl, _⟩ | ⟨old, _⟩
    · exact .inl rfl
    · exact .inr old
  rcases served with created | updated
  · obtain ⟨_, same⟩ := apiServer_create_ok created
    exact committed (object.created before.revision) rfl rfl rfl
      (congrArg Prod.snd same)
  · obtain ⟨stored, found, _, replaced⟩ := apiServer_update_ok updated
    obtain ⟨member, named⟩ := Store.find?_eq_some.mp found
    have mark := unmarked stored member
    rcases Store.of_replace replaced with ⟨unchanged, -, rfl⟩ | ⟨_, -, written⟩
    · refine ⟨_, found, ?_, mark, fun other old => .inr old⟩
      exact (congrArg Resource.spec unchanged).symm
    · exact committed (stored.updatedBy object) named rfl mark written

/-- A successful status update replaces the version that the client sent. -/
theorem apiServer_updateStatus_ok {object updated : kind.Object}
    (served : apiServer (.updateStatus kind object) before (.ok updated) after) :
    ∃ stored, before.find? kind object.key = some stored ∧
      object.metadata.resourceVersion = stored.metadata.resourceVersion ∧
      before.replace kind stored (stored.statusUpdatedBy object) = (.ok updated, after) :=
  Store.replaceRead_ok (serve_of_ok served)

/-- What a successful status update leaves: the version that was sent, with the
new status and everything else as it was stored. -/
structure StatusWritten {kind : Kind} (object stored next : kind.Object)
    (before after : Store) : Prop where
  found : before.find? kind object.key = some stored
  version : object.metadata.resourceVersion = stored.metadata.resourceVersion
  finds : after.find? kind object.key = some next
  spec : next.spec = stored.spec
  status : next.status = object.status
  deletionTimestamp :
    next.metadata.deletionTimestamp = stored.metadata.deletionTimestamp
  finalizers : next.metadata.finalizers = stored.metadata.finalizers
  generation : next.metadata.generation = stored.metadata.generation
  frame : ∀ key, key ≠ object.key → after.find? kind key = before.find? kind key

/-- The server answers a status update with what it stores. -/
theorem apiServer_statusWritten {object value : kind.Object}
    (served : apiServer (.updateStatus kind object) before (.ok value) after) :
    ∃ stored, StatusWritten object stored value before after := by
  obtain ⟨stored, found, version, replaced⟩ := apiServer_updateStatus_ok served
  obtain ⟨member, named⟩ := Store.find?_eq_some.mp found
  obtain ⟨unchanged, ⟨⟩, rfl⟩ | ⟨_, ⟨⟩, rfl⟩ := Store.of_replace replaced
  · exact ⟨_, found, version, found, rfl,
      (congrArg Resource.status unchanged).symm, rfl, rfl, rfl, fun _ _ => rfl⟩
  · have held : (stored.statusUpdatedBy object).isReleased = false := before.live kind stored member
    have finds := before.find?_commit_self kind held
    have keys : (stored.statusUpdatedBy object).key = object.key := named
    rw [keys] at finds
    exact ⟨stored, found, version, finds, rfl, rfl, rfl, rfl, rfl,
      fun key different => Store.find?_commit_of_ne (keys ▸ different)⟩

theorem apiServer_allStatuses {holds : kind.Status → Prop} (fresh : holds default)
    (keeps : request.KeepsStatuses kind holds) (served : apiServer request before reply after)
    (all : before.AllStatuses kind holds) : after.AllStatuses kind holds :=
  (apiServer_step served).allStatuses fresh keeps all

theorem apiServer_of_healthyServer (served : healthyServer request before reply after) :
    apiServer request before reply after :=
  .inl served

theorem runs_apiServer_of_healthyServer {program : Client α} {outcome : Outcome α}
    (run : program.Runs healthyServer before events outcome after) :
    program.Runs apiServer before events outcome after :=
  run.mono fun _ _ _ _ _ served => apiServer_of_healthyServer served

section

variable {kind : Kind} {sent stored : kind.Object} {before after : Store}
  {reply : Except GoError kind.Object}

theorem exists_ok_of_replaceRead {next : kind.Object → kind.Object}
    (replaced : before.replaceRead kind sent next = (reply, after))
    (found : before.find? kind sent.key = some stored)
    (version : sent.metadata.resourceVersion = stored.metadata.resourceVersion) :
    ∃ updated, reply = .ok updated := by
  simp only [Store.replaceRead, found, if_pos version] at replaced
  rcases Store.of_replace replaced with ⟨_, replied, _⟩ | ⟨_, replied, _⟩ <;> exact ⟨_, replied⟩

/-- An update of the version that is stored is carried out. -/
theorem healthyServer_update (served : healthyServer (.update kind sent) before reply after)
    (found : before.find? kind sent.key = some stored)
    (version : sent.metadata.resourceVersion = stored.metadata.resourceVersion) :
    ∃ updated, reply = .ok updated :=
  exists_ok_of_replaceRead served found version

theorem healthyServer_updateStatus
    (served : healthyServer (.updateStatus kind sent) before reply after)
    (found : before.find? kind sent.key = some stored)
    (version : sent.metadata.resourceVersion = stored.metadata.resourceVersion) :
    ∃ updated, reply = .ok updated :=
  exists_ok_of_replaceRead served found version

end

/-- One order is the order of the store. -/
theorem runs_shufflingServer_of_healthyServer {program : Client α} {outcome : Outcome α}
    (run : program.Runs healthyServer before events outcome after) :
    program.Runs shufflingServer before events outcome after := by
  refine run.mono fun answer request before reply after served => ⟨reply, served, ?_⟩
  cases request with
  | list =>
    cases reply with
    | ok => exact .refl _
    | error => rfl
  | _ => rfl

/-- Only lists are shuffled. -/
theorem healthyServer_of_shufflingServer (direct : request.isList = false)
    (served : shufflingServer request before reply after) :
    healthyServer request before reply after := by
  obtain ⟨answered, served, same⟩ := served
  cases request with
  | list kind selector => cases direct
  | _ =>
    obtain rfl : reply = answered := same
    exact served

theorem shufflingServer_list {selector : ListSelector} {reply : Except GoError (List kind.Object)}
    (served : shufflingServer (.list kind selector) before reply after) :
    after = before ∧ ∃ listed, reply = .ok listed ∧
      listed.Perm ((before.table kind).rows.filter (selector.selects kind)) := by
  obtain ⟨answered, served, same⟩ := served
  have answers : (Except.ok ((before.table kind).rows.filter (selector.selects kind)),
      before) = (answered, after) := served
  cases answers
  cases reply with
  | ok listed => exact ⟨rfl, listed, rfl, same⟩
  | error fault => cases same

theorem runs_healthyServer_of_shufflingServer {program : Client α} {outcome : Outcome α}
    (direct : program.Makes fun _ request => request.isList = false)
    (run : program.Runs shufflingServer before events outcome after) :
    program.Runs healthyServer before events outcome after :=
  run.mono_of_makes direct fun _ _ direct _ _ _ served =>
    healthyServer_of_shufflingServer direct served

/-! ### What is found after a write -/

namespace Store

variable {store : Store} {kind : Kind} {stored next object : kind.Object}

/-- What is found after a write is what was written. -/
theorem stamp_of_find?_replace {reply : Except GoError kind.Object}
    (replaced : store.replace kind stored next = (reply, after))
    (found : store.find? kind next.key = some stored)
    (finds : after.find? kind next.key = some object) : ∃ version, object = stamp version next := by
  obtain ⟨same, -, rfl⟩ | ⟨_, -, rfl⟩ := of_replace replaced
  · cases found.symm.trans finds
    exact ⟨next.metadata.resourceVersion, same.symm⟩
  · obtain ⟨member, named⟩ := find?_eq_some.mp finds
    rcases mem_commit.mp member with ⟨rfl, _⟩ | ⟨_, different⟩
    · exact ⟨_, rfl⟩
    · exact absurd named different

/-- An object that nothing releases is found again after a write to it. -/
theorem find?_replace {reply : Except GoError kind.Object}
    (replaced : store.replace kind stored next = (reply, after))
    (found : store.find? kind next.key = some stored) (held : next.isReleased = false) :
    ∃ version, after.find? kind next.key = some (stamp version next) := by
  obtain ⟨rfl, -, rfl⟩ | ⟨_, -, rfl⟩ := of_replace replaced
  · exact ⟨next.metadata.resourceVersion, found⟩
  · exact ⟨_, store.find?_commit_self kind held⟩

end Store

section

variable {kind : Kind} {before after : Store} {object sent : kind.Object}

/-- What is found after an update that succeeds is the update of what was found. -/
theorem apiServer_update_finds {updated stored : kind.Object}
    (served : apiServer (.update kind sent) before (.ok updated) after)
    (found : before.find? kind sent.key = some stored)
    (finds : after.find? kind sent.key = some object) :
    ∃ version, object = Store.stamp version (stored.updatedBy sent) := by
  obtain ⟨_, foundSame, _, replaced⟩ := apiServer_update_ok served
  cases found.symm.trans foundSame
  have named : (stored.updatedBy sent).key = sent.key := (Store.find?_eq_some.mp found).2
  rw [← named] at found finds
  exact Store.stamp_of_find?_replace replaced found finds

/-- The same for a status update. -/
theorem apiServer_updateStatus_finds {updated stored : kind.Object}
    (served : apiServer (.updateStatus kind sent) before (.ok updated) after)
    (found : before.find? kind sent.key = some stored)
    (finds : after.find? kind sent.key = some object) :
    ∃ version, object = Store.stamp version (stored.statusUpdatedBy sent) := by
  obtain ⟨_, foundSame, _, replaced⟩ := apiServer_updateStatus_ok served
  cases found.symm.trans foundSame
  have named : (stored.statusUpdatedBy sent).key = sent.key := (Store.find?_eq_some.mp found).2
  rw [← named] at found finds
  exact Store.stamp_of_find?_replace replaced found finds

end

/-! ### Finalizers -/

/-- The object under a key is there and carries a finalizer. -/
def Store.HasFinalizer (store : Store) (kind : Kind) (key : NamespacedName) (finalizer : String) :
    Prop :=
  ∃ object, store.find? kind key = some object ∧ finalizer ∈ object.metadata.finalizers

namespace Store.HasFinalizer

variable {before after : Store} {kind : Kind} {key : NamespacedName} {finalizer : String}

theorem of_table (carries : before.HasFinalizer kind key finalizer)
    (same : after.table kind = before.table kind) : after.HasFinalizer kind key finalizer := by
  obtain ⟨object, found, has⟩ := carries
  refine ⟨object, ?_, has⟩
  exact (Store.find?_of_table same).trans found

/-- A write that keeps the finalizer of an object keeps the object. -/
theorem of_replace {stored next : kind.Object} {reply : Except GoError kind.Object}
    (replaced : before.replace kind stored next = (reply, after))
    (found : before.find? kind key = some stored) (named : next.key = key)
    (has : finalizer ∈ next.metadata.finalizers) : after.HasFinalizer kind key finalizer := by
  have held : next.isReleased = false := by
    have some : next.metadata.finalizers ≠ [] := List.ne_nil_of_mem has
    simp [Resource.isReleased, some]
  rw [← named] at found ⊢
  obtain ⟨version, finds⟩ := find?_replace replaced found held
  exact ⟨_, finds, has⟩

/-- A status update keeps the finalizers. -/
theorem updateStatus {object : kind.Object} {reply : Except GoError kind.Object}
    (carries : before.HasFinalizer kind key finalizer)
    (served : apiServer (.updateStatus kind object) before reply after) :
    after.HasFinalizer kind key finalizer := by
  cases reply with
  | error fault =>
    rw [apiServer_of_error served]
    exact carries
  | ok value =>
    obtain ⟨stored, found, has⟩ := carries
    obtain ⟨written, wrote⟩ := apiServer_statusWritten served
    by_cases about : key = object.key
    · rw [about, wrote.found] at found
      cases found
      refine ⟨value, about ▸ wrote.finds, ?_⟩
      rw [wrote.finalizers]
      exact has
    · exact ⟨stored, (wrote.frame key about).trans found, has⟩

/-- An update that sends the finalizer leaves it on the object. -/
theorem of_update {object updated : kind.Object} (named : object.key = key)
    (has : finalizer ∈ object.metadata.finalizers)
    (served : apiServer (.update kind object) before (.ok updated) after) :
    after.HasFinalizer kind key finalizer := by
  obtain ⟨stored, found, _, replaced⟩ := apiServer_update_ok served
  have keys : (stored.updatedBy object).key = object.key := (find?_eq_some.mp found).2
  rw [← named]
  exact of_replace replaced found keys has

/-- A delete only marks an object that has a finalizer. -/
theorem delete {reply : Except GoError Unit} {other : NamespacedName}
    (carries : before.HasFinalizer kind key finalizer)
    (served : apiServer (.delete kind other) before reply after) :
    after.HasFinalizer kind key finalizer := by
  obtain ⟨object, found, has⟩ := carries
  by_cases about : other = key
  · subst about
    rcases apiServer_cases served with served | ⟨_, same⟩
    · have finalizers : object.metadata.finalizers ≠ [] := List.ne_nil_of_mem has
      simp only [serve, found, finalizers, if_false] at served
      cases served
      exact of_replace rfl found (by simp [(find?_eq_some.mp found).2]) (by simpa using has)
    · rw [same]
      exact ⟨object, found, has⟩
  · refine ⟨object, ?_, has⟩
    rw [apiServer_find?_of_target_ne _ served, found]
    intro aimed
    cases aimed
    exact about rfl

end Store.HasFinalizer

/-- Every object was there before, under its key and with its status. -/
def Store.KeepsEachStatus (kind : Kind) (before after : Store) : Prop :=
  ∀ object ∈ (after.table kind).rows,
    ∃ old ∈ (before.table kind).rows, old.key = object.key ∧ old.status = object.status

theorem Store.KeepsEachStatus.of_table (same : after.table kind = before.table kind) :
    before.KeepsEachStatus kind after := by
  intro object member
  rw [same] at member
  exact ⟨object, member, rfl, rfl⟩

/-- A call that writes no status of a kind and creates no object of it. -/
theorem apiServer_keepsEachStatus (quiet : request.leavesStatus kind = true)
    (served : apiServer request before reply after) : before.KeepsEachStatus kind after := by
  by_cases about : kind = request.kind
  · subst about
    intro object member
    rcases (apiServer_step served).of_mem member with old | ⟨next, computes, rfl⟩
    · exact ⟨object, old, rfl, rfl⟩
    cases request with
    | get | list => exact computes.elim
    | create | updateStatus | patchStatus => simp [Call.leavesStatus, Call.kind] at quiet
    | update =>
      obtain ⟨stored, found, _, rfl⟩ := computes
      exact ⟨stored, Store.mem_of_find? found, rfl, rfl⟩
    | patch =>
      obtain ⟨stored, found, rfl⟩ := computes
      exact ⟨stored, Store.mem_of_find? found, rfl, rfl⟩
    | delete =>
      obtain ⟨stored, found, rfl⟩ := computes
      exact ⟨stored, Store.mem_of_find? found, (stored.key_markedForDeletion _).symm,
        (stored.status_markedForDeletion _).symm⟩
  · exact .of_table (apiServer_table_of_leaves (.inr about) served)

theorem Call.leavesStatus_of_isRead (reads : request.isRead = true) (kind : Kind) :
    request.leavesStatus kind = true := by
  cases request with
  | get | list => rfl
  | create | update | updateStatus | patch | patchStatus | delete => cases reads

theorem Call.patchedStatus_of_isRead (reads : request.isRead = true) (kind : Kind) :
    request.patchedStatus kind = none := by
  cases request with
  | get | list => rfl
  | create | update | updateStatus | patch | patchStatus | delete => cases reads

theorem Call.isStatusPatch_of_isRead (reads : request.isRead = true) :
    request.isStatusPatch = false := by
  cases request <;> first | rfl | cases reads

theorem Call.sentStatus_of_leavesStatus (quiet : request.leavesStatus kind = true) :
    request.sentStatus kind = none := by
  cases request with
  | updateStatus other =>
    have different : other ≠ kind := by simpa [Call.leavesStatus] using quiet
    simp [Call.sentStatus, different]
  | _ => rfl

/-- Only a status update sends a status. -/
theorem Call.eq_updateStatus {sent : kind.Object} (sends : request.sentStatus kind = some sent) :
    ∃ same : kind.Object = answer, request = same ▸ Call.updateStatus kind sent := by
  cases request with
  | updateStatus other object =>
    by_cases same : other = kind
    · subst same
      simp only [Call.sentStatus, dite_true, Option.some.injEq] at sends
      rw [← sends]
      exact ⟨rfl, rfl⟩
    · simp [Call.sentStatus, same] at sends
  | _ => cases sends

/-- A stored object that is sent back with another spec has that spec afterwards:
its finalizers stay, so nothing releases it. -/
theorem apiServer_update_spec {stored updated : kind.Object} {spec : kind.Spec}
    (found : before.find? kind stored.key = some stored)
    (served : apiServer (.update kind { stored with spec }) before (.ok updated) after) :
    ∃ next, after.find? kind stored.key = some next ∧ next.spec = spec := by
  obtain ⟨_, foundSame, _, replaced⟩ := apiServer_update_ok served
  cases found.symm.trans foundSame
  have held : (stored.updatedBy { stored with spec }).isReleased = false :=
    before.live kind stored (Store.mem_of_find? found)
  obtain ⟨version, finds⟩ := Store.find?_replace replaced found held
  exact ⟨_, finds, rfl⟩

/-! ### Versions -/

/-- A version that the store has given out: what is stored under its key with this
version is this very object. -/
structure Store.Knows (store : Store) (kind : Kind) (object : kind.Object) : Prop where
  version : object.metadata.resourceVersion ≤ store.revision
  same : ∀ stored ∈ (store.table kind).rows, stored.key = object.key →
    stored.metadata.resourceVersion = object.metadata.resourceVersion → stored = object

theorem Store.Knows.of_mem {object : kind.Object} (member : object ∈ (store.table kind).rows) :
    store.Knows kind object where
  version := store.stamped kind object member
  same _ stored keys versions :=
    (Store.Evolves.refl kind store).eq_of_version member stored keys versions

/-- A version stays known: later ones are newer. -/
theorem Store.Knows.of_evolves {object : kind.Object} (knows : before.Knows kind object)
    (evolves : before.Evolves kind after) : after.Knows kind object where
  version := Nat.le_trans knows.version evolves.revision
  same stored member keys versions := by
    rcases evolves.fresh stored member with old | new
    · exact knows.same stored old keys versions
    · have bound := knows.version
      omega

/-- The server answers an update with the version it stores. -/
theorem apiServer_update_knows {object updated : kind.Object}
    (served : apiServer (.update kind object) before (.ok updated) after) :
    after.Knows kind updated := by
  obtain ⟨stored, found, _, replaced⟩ := apiServer_update_ok served
  obtain ⟨member, _⟩ := Store.find?_eq_some.mp found
  obtain ⟨_, ⟨⟩, rfl⟩ | ⟨_, ⟨⟩, rfl⟩ := Store.of_replace replaced
  · exact .of_mem member
  · refine ⟨?_, fun other otherMember keys versions => ?_⟩
    · simp only [Store.commit]
      split <;> exact Nat.le_refl _
    · rcases Store.mem_commit.mp otherMember with ⟨same, _⟩ | ⟨_, different⟩
      · exact same
      · exact absurd keys different

/-! ### What a client has read -/

/-- The objects of a kind that a client has read so far. -/
def readSoFar {State : Type} (kind : Kind) (history : List (EventOn State)) : List kind.Object :=
  history.filterMap fun event => event.request.fetched kind event.reply

theorem mem_readSoFar {State : Type} {history : List (EventOn State)} {event : EventOn State}
    {object : kind.Object} (member : event ∈ history)
    (returned : event.request.fetched kind event.reply = some object) :
    object ∈ readSoFar kind history :=
  List.mem_filterMap.mpr ⟨event, member, returned⟩

theorem readSoFar_subset {State : Type} {history events : List (EventOn State)}
    (past : history ⊆ events) : readSoFar kind history ⊆ readSoFar kind events := by
  intro object member
  obtain ⟨event, earlier, returned⟩ := List.mem_filterMap.mp member
  exact mem_readSoFar (past earlier) returned

/-! ### Cached lists -/

/-- All other calls reach the current store. -/
theorem apiServer_of_cachedServer {before after : CachedStore} (direct : request.isList = false)
    (served : cachedServer request before reply after) :
    apiServer request before.current reply after.current := by
  obtain ⟨snapshot, _, served | ⟨failed, rfl⟩⟩ := served
  · simp only [serveFrom, direct] at served
    cases served
    exact .inl rfl
  · exact .inr ⟨failed, rfl⟩

/-- A list leaves the current store alone. -/
theorem current_of_cachedServer_list {before after : CachedStore} (lists : request.isList = true)
    (served : cachedServer request before reply after) : after.current = before.current := by
  obtain ⟨snapshot, _, served | ⟨_, rfl⟩⟩ := served
  · simp only [serveFrom, lists, if_true] at served
    cases served
    rfl
  · rfl

/-- A client that always lists one known snapshot is a client of the cached
server. -/
theorem runs_cachedServer_of_snapshot {snapshot : Store} {program : Client α}
    {before after : CachedStore} {events : List (EventOn CachedStore)} {outcome : Outcome α}
    (run : program.Runs (Foundation.Service.unreliable (serveFrom snapshot))
      before events outcome after) (known : snapshot ∈ before.current :: before.past) :
    program.Runs cachedServer before events outcome after := by
  induction run with
  | done value state => exact .done value state
  | crash cause state => exact .crash cause state
  | interrupted program state => exact .interrupted program state
  | @call _ request _ before after _ _ _ _ served rest ih =>
    have still : snapshot ∈ after.current :: after.past := by
      rcases served with served | ⟨_, rfl⟩
      · simp only [serveFrom] at served
        split at served
        · cases served
          exact known
        · cases served
          exact .tail _ known
      · exact known
    exact .call ⟨snapshot, known, served⟩ (ih still)

/-! ### Caches that lag -/

/-- A read is answered by some store so far, and nothing moves. -/
theorem laggingServer_read {before after : CachedStore} (reads : request.isRead = true)
    (served : laggingServer request before reply after) :
    (∃ seen ∈ before.current :: before.past, apiServer request seen reply seen) ∧
      after = before := by
  simpa only [laggingServer, reads, if_true] using served

/-- A write reaches the current store, which is then a past one. -/
theorem laggingServer_write {before after : CachedStore} (writes : request.isRead = false)
    (served : laggingServer request before reply after) :
    apiServer request before.current reply after.current ∧
      after.past = before.current :: before.past := by
  simpa [laggingServer, writes] using served

/-! ### Current answers -/

theorem apiServer_of_truthfulServer (served : truthfulServer request before reply after) :
    apiServer request before reply after :=
  served.imp_right fun ⟨⟨fault, failed, _⟩, same⟩ => ⟨⟨fault, failed⟩, same⟩

theorem truthfulServer_of_healthyServer (served : healthyServer request before reply after) :
    truthfulServer request before reply after :=
  .inl served

/-- A stored object is read, or the read fails for another reason. -/
theorem truthfulServer_get {object : kind.Object} {reply : Except GoError kind.Object}
    (found : before.find? kind key = some object)
    (served : truthfulServer (.get kind key) before reply after) :
    after = before ∧
      (reply = .ok object ∨ ∃ fault, reply = .error fault ∧ fault.isNotFound = false) := by
  rcases served with carriedOut | ⟨failed, same⟩
  · rw [serve_get_some found] at carriedOut
    cases carriedOut
    exact ⟨rfl, .inl rfl⟩
  · exact ⟨same, .inr failed⟩

/-! ### Programs that only read -/

/-- Whatever the server answers, a run from this store issues no write and leaves the
store as it is. -/
def OnlyReads (server : Server Store) {α : Type} (program : Client α) (store : Store) : Prop :=
  ∀ events outcome final, program.Runs server store events outcome final →
    (∀ event ∈ events, event.request.isRead = true) ∧ final = store

namespace OnlyReads

variable {server : Server Store} {α : Type} {store : Store}

theorem done (value : α) : OnlyReads server (.done value) store := by
  intro events outcome final run
  cases run with
  | done | interrupted => exact ⟨List.forall_mem_nil _, rfl⟩

/-- The rule for a read whose answers leave the store alone. -/
theorem read {next : Except GoError answer → Client α} (reads : request.isRead = true)
    (rest : ∀ reply after, server request store reply after →
      after = store ∧ OnlyReads server (next reply) store) :
    OnlyReads server (.call request next) store := by
  intro events outcome final run
  cases run with
  | interrupted => exact ⟨List.forall_mem_nil _, rfl⟩
  | call served remainder =>
    obtain ⟨rfl, only⟩ := rest _ _ served
    obtain ⟨later, same⟩ := only _ _ _ remainder
    refine ⟨fun event member => ?_, same⟩
    rcases List.mem_cons.mp member with rfl | further
    · exact reads
    · exact later event further

theorem bind {β : Type} {first : Client β} {rest : β → Client α}
    (head : OnlyReads server first store) (tail : ∀ value, OnlyReads server (rest value) store) :
    OnlyReads server (first.bind rest) store := by
  intro events outcome final run
  rcases run.bind_cases with
    ⟨value, early, late, middle, rfl, before, after⟩ | ⟨cause, _, ended⟩ | ⟨_, ended⟩
  · obtain ⟨reads, rfl⟩ := head _ _ _ before
    obtain ⟨others, rfl⟩ := tail value _ _ _ after
    exact ⟨fun event member => (List.mem_append.mp member).elim (reads event) (others event),
      rfl⟩
  · exact head _ _ _ ended
  · exact head _ _ _ ended

end OnlyReads

end ScoreOrchestrator
