/-
Module: Proofs.FailedRecovery
Purpose: Which claims are Bound after three reconciles on a server that carries out
  every call, and the claims that are never bound again.
-/
import ScoreOrchestrator.Proofs.HealthChecks
import ScoreOrchestrator.Proofs.PostgresCredentials

namespace ScoreOrchestrator.Provisioner

open Foundation Program

/-!
`Provision` is called in the phases Pending and Claiming only.  From Failed a claim gets
to Claiming when `GetStatus` finds all its objects; but nobody creates the objects that
an interrupted `Provision` has left out, since that takes another `Provision`.
-/

variable {store : Store} {strategy : Strategy}

/-- So many reconciles in a row, with whatever random bytes and clock readings, all
return and lead to such a store. -/
def AfterReconciles (key : NamespacedName) (good : Store → Prop) : Nat → Store → Prop
  | 0, store => good store
  | count + 1, store => ∀ encoded now, ∃ next,
      Reconciles (provisionerAt (.ok encoded) now) key store next ∧
        AfterReconciles key good count next

/-- All objects of a claim exist. -/
def Available (store : Store) (claim : ResourceClaim) : Prop :=
  ∀ target ∈ objectsOf claim, (store.find? target.1 target.2).isSome = true

/-- Every StatefulSet has the replicas it asks for. -/
def SetsReady (store : Store) : Prop :=
  ∀ set ∈ (store.table .statefulSet).rows, ∃ replicas,
    set.spec.replicas = some replicas ∧ replicas ≤ set.status.readyReplicas

/-- A claim is Bound with valid outputs. -/
def BoundValid (key : NamespacedName) (store : Store) : Prop :=
  ∃ claim, store.find? .resourceClaim key = some claim ∧ claim.status.phase = .bound ∧
    claim.status.outputsAvailable = true ∧ validateOutputs claim.status.outputs = .ok ()

namespace AfterReconciles

variable {key : NamespacedName} {good other : Store → Prop}

/-- Reconciles that lead to two kinds of stores lead to stores of both kinds. -/
theorem and {count : Nat} (first : AfterReconciles key good count store)
    (second : AfterReconciles key other count store) :
    AfterReconciles key (fun store => good store ∧ other store) count store := by
  induction count generalizing store with
  | zero => exact ⟨first, second⟩
  | succ count ih =>
    intro encoded now
    obtain ⟨next, reconciles, rest⟩ := first encoded now
    obtain ⟨same, again, restAgain⟩ := second encoded now
    obtain rfl := reconciles.unique again
    exact ⟨next, reconciles, ih rest restAgain⟩

theorem exists_good {count : Nat} (reconciles : AfterReconciles key good count store) :
    ∃ store, good store := by
  induction count generalizing store with
  | zero => exact ⟨store, reconciles⟩
  | succ count ih =>
    obtain ⟨next, _, rest⟩ := reconciles "" 0
    exact ih rest

/-- A store that reconciles leave alone. -/
theorem of_fixed
    (fixed : ∀ encoded now, Reconciles (provisionerAt (.ok encoded) now) key store store)
    (holds : good store) (count : Nat) : AfterReconciles key good count store := by
  induction count with
  | zero => exact holds
  | succ count ih => exact fun encoded now => ⟨store, fixed encoded now, ih⟩

end AfterReconciles

/-! ### The strategies on a healthy server -/

section

variable {claim : ResourceClaim} {store : Store}

/-- A status check that reports no error and does not call anything failed. -/
def Reports (check : Client (StrategyStatus × Option GoError)) (store : Store) (healthy : Prop) :
    Prop :=
  ∃ events status,
    check.Runs healthyServer store events (.returned (status, none)) store ∧
    (status.phase = .bound ∧ healthy ∨ status.phase = .claiming ∧ ¬ healthy)

theorem secretStatus_reports (key : NamespacedName) (noun creating available : String) :
    Reports (secretStatus key noun creating available) store
      ((store.find? .secret key).isSome = true) := by
  cases present : store.find? .secret key with
  | some secret => exact ⟨_, _, .call (serve_get_some present) (.done _ _), .inl ⟨rfl, rfl⟩⟩
  | none => exact ⟨_, _, .call (serve_get_none present) (.done _ _), .inr ⟨rfl, nofun⟩⟩

/-- A look at one object goes before the rest of a check. -/
theorem Reports.get {kind : Kind} {key : NamespacedName}
    {next : Except GoError kind.Object → Client (StrategyStatus × Option GoError)} {healthy : Prop}
    {status : StrategyStatus}
    (rest : ∀ object, store.find? kind key = some object →
      Reports (next (.ok object)) store healthy)
    (missing : next (.error (.objectNotFound kind key)) = .done (status, none))
    (claiming : status.phase = .claiming) :
    Reports (.call (.get kind key) next) store
      ((store.find? kind key).isSome = true ∧ healthy) := by
  cases present : store.find? kind key with
  | some object =>
    obtain ⟨events, reported, run, phase⟩ := rest object present
    refine ⟨_, reported, .call (serve_get_some present) run, ?_⟩
    simpa using phase
  | none =>
    refine ⟨[_], status, .call (serve_get_none present) ?_, .inr ⟨claiming, fun holds => ?_⟩⟩
    · rw [missing]
      exact .done _ _
    · cases holds.1

namespace PostgresStrategy

theorem serviceStatus_reports : Reports (serviceStatus claim) store
    ((store.find? .service (keyBeside claim (serviceName claim))).isSome = true ∧ True) := by
  refine Reports.get (fun service _ => ?_) rfl rfl
  exact ⟨_, _, .done _ _, .inl ⟨rfl, trivial⟩⟩

theorem statefulSetStatus_reports (ready : SetsReady store) :
    Reports (statefulSetStatus claim) store
      ((store.find? .statefulSet (keyBeside claim (statefulSetName claim))).isSome = true ∧
        (store.find? .service (keyBeside claim (serviceName claim))).isSome = true ∧
          True) := by
  refine Reports.get (fun set found => ?_) rfl rfl
  obtain ⟨replicas, asked, enough⟩ := ready set (Store.mem_of_find? found)
  simp only [done_bind, asked, Nat.not_lt.mpr enough, if_false]
  exact serviceStatus_reports

theorem getStatus_reports (ready : SetsReady store) :
    Reports (getStatus claim) store
      ((store.find? .secret (keyBeside claim (secretName claim))).isSome = true ∧
        (store.find? .statefulSet (keyBeside claim (statefulSetName claim))).isSome = true ∧
        (store.find? .service (keyBeside claim (serviceName claim))).isSome = true ∧
          True) :=
  Reports.get (fun _ _ => statefulSetStatus_reports ready) rfl rfl

end PostgresStrategy

theorem Reports.congr {check : Client (StrategyStatus × Option GoError)} {healthy same : Prop}
    (reports : Reports check store healthy) (iff : healthy ↔ same) : Reports check store same := by
  rw [← iff]
  exact reports

/-- `GetStatus` finds a claim bound exactly if its objects exist, and never failed. -/
theorem getStatus_reports {random : RandomText} (selected : strategyOf random claim = .ok strategy)
    (ready : SetsReady store) :
    Reports (strategy.getStatus claim) store (Available store claim) := by
  unfold Available
  rcases strategyOf_cases selected with ⟨type, rfl⟩ | ⟨type, rfl⟩ | ⟨type, rfl⟩
  · rw [objectsOf_postgres type]
    apply (PostgresStrategy.getStatus_reports ready).congr
    simp only [PostgresStrategy.objects, List.forall_mem_cons]
    tauto
  · rw [objectsOf_redis type]
    apply (secretStatus_reports _ _ _ _).congr
    simp [RedisStrategy.objects]
  · rw [objectsOf_secret type]
    apply (secretStatus_reports _ _ _ _).congr
    simp [SecretStrategy.objects]

theorem exists_run_publishSecret (secret : Secret) (store : Store) :
    ∃ events outputs after, (publishSecret secret).Runs healthyServer store events
      (.returned (.ok outputs)) after := by
  obtain ⟨_, after, run⟩ := exists_run_createIfMissing .secret "secret" secret store
  exact ⟨_, _, after, run.orReturn (.done _ after)⟩

/-- `Provision` publishes the outputs of the claim and leaves the claims alone. -/
theorem exists_provision {encoded : String}
    (selected : strategyOf (.ok encoded) claim = .ok strategy) (store : Store) :
    ∃ events after,
      (strategy.provision claim).Runs healthyServer store events
        (.returned (.ok (some (publishedOutputs claim)))) after ∧
      after.table .resourceClaim = store.table .resourceClaim := by
  obtain ⟨events, outputs, after, run⟩ : ∃ events outputs after,
      (strategy.provision claim).Runs healthyServer store events
        (.returned (.ok outputs)) after := by
    rcases strategyOf_cases selected with ⟨_, rfl⟩ | ⟨_, rfl⟩ | ⟨_, rfl⟩
    · exact PostgresStrategy.exists_run_provision
        (show generateRandomPassword (.ok encoded) 16 = _ from rfl) claim store
    · exact exists_run_publishSecret _ store
    · exact exists_run_publishSecret _ store
  obtain rfl := run.of_yields (strategyOf_returns selected) outputs rfl
  exact ⟨events, after, run, table_of_makes_leaves
    ((registerStrategies_leavesClaims _ _ strategy selected).provision claim)
    (runs_apiServer_of_healthyServer run)⟩

end

/-! ### What one reconcile does -/

/-- The published outputs are valid: the Secret has a name. -/
theorem validateOutputs_published (claim : ResourceClaim) :
    validateOutputs (some (publishedOutputs claim)) = .ok () := by
  have named : (secretOf claim).name ≠ "" := by
    unfold secretOf keyBeside secretSuffix
    intro empty
    have letters := congrArg String.toList empty
    rw [String.toList_append] at letters
    have suffix := (List.append_eq_nil_iff.mp letters).2
    split_ifs at suffix <;> cases suffix
  simp [validateOutputs, hasOutput, publishedOutputs, named]

/-- A claim that the controller takes care of. -/
structure Tended (store : Store) (key : NamespacedName) (claim : ResourceClaim) : Prop where
  found : store.find? .resourceClaim key = some claim
  finalizer : hasFinalizer claim = true
  kept : claim.isBeingDeleted = false
  provisioned : IsProvisioned claim

/-- A claim that is Bound and needs no more reconciles. -/
structure Settled (store : Store) (key : NamespacedName) (claim : ResourceClaim) : Prop where
  found : store.find? .resourceClaim key = some claim
  kept : claim.isBeingDeleted = false
  bound : claim.status.phase = .bound
  available : claim.status.outputsAvailable = true
  valid : validateOutputs claim.status.outputs = .ok ()
  observed : claim.status.observedGeneration = claim.metadata.generation

theorem Settled.binds {key : NamespacedName} {claim : ResourceClaim}
    (settled : Settled store key claim) (count : Nat) :
    AfterReconciles key (BoundValid key) count store := by
  have skips : shouldReconcile claim = false := by
    simp [shouldReconcile, settled.kept, settled.bound, settled.observed]
  refine AfterReconciles.of_fixed (fun _ _ => reconciles_skipped settled.found skips) ?_ count
  exact ⟨claim, settled.found, settled.bound, settled.available, settled.valid⟩

section

variable {store middle : Store} {key : NamespacedName} {claim : ResourceClaim}
  {encoded : String} {now : Time} {events : List ApiEvent}

/-- What a handler made of the claim is stored, and the claim stays in care. -/
theorem Tended.step (tended : Tended store key claim) (reconciles : shouldReconcile claim = true)
    {handled : Handled} (handles : (handleProvisioning (provisionerAt (.ok encoded) now) claim).Runs
      healthyServer store events (.returned handled) middle)
    (claims : middle.table .resourceClaim = store.table .resourceClaim) :
    ∃ after next, Reconciles (provisionerAt (.ok encoded) now) key store after ∧
      Tended after key next ∧ next.status = handled.1.status ∧ next.spec = claim.spec ∧
      next.metadata.generation = claim.metadata.generation ∧
      ∀ kind, kind ≠ .resourceClaim → after.table kind = middle.table kind := by
  have held : middle.find? .resourceClaim key = some claim := by
    rw [Store.find?, claims]
    exact tended.found
  obtain ⟨after, next, run, written, others⟩ := exists_reconciles_handled tended.found
    tended.finalizer tended.kept reconciles handles held
  have named : handled.1.key = key := by
    rw [Resource.key, handleProvisioning_metadata handles]
    exact Store.key_of_find? tended.found
  refine ⟨after, next, run, ⟨named ▸ written.finds, ?_, ?_, ?_⟩, written.status, written.spec,
    written.generation, others⟩
  · rw [hasFinalizer, written.finalizers]
    exact tended.finalizer
  · rw [Resource.isBeingDeleted, written.deletionTimestamp]
    exact tended.kept
  · rw [IsProvisioned, written.spec]
    exact tended.provisioned

/-- A handler that leaves the claim and the store alone changes nothing. -/
theorem Tended.fixed (tended : Tended store key claim) (reconciles : shouldReconcile claim = true)
    {result : Controller.ReconcileResult} {err : Option GoError}
    (handles : (handleProvisioning (provisionerAt (.ok encoded) now) claim).Runs healthyServer store
      events (.returned (claim, result, err)) store) :
    Reconciles (provisionerAt (.ok encoded) now) key store store := by
  have same : serve (.updateStatus .resourceClaim claim) store = (.ok claim, store) := by
    apply serve_updateStatus_self
    rw [Store.key_of_find? tended.found]
    exact tended.found
  have provisions : (provisionClaim (provisionerAt (.ok encoded) now) claim).Runs healthyServer
      store _ (.returned (getReconcileResult claim err)) store :=
    handles.bind (.call same (.done _ _))
  apply reconciles_of_found tended.found
  simp only [reconciles, tended.kept, tended.finalizer, Bool.false_eq_true, if_false, if_true]
  exact provisions

/-- A claim that is not Bound is always reconciled. -/
theorem shouldReconcile_of_ne (kept : claim.isBeingDeleted = false)
    (unbound : claim.status.phase ≠ .bound) : shouldReconcile claim = true := by
  simp [shouldReconcile, kept, unbound]

theorem exists_provisionAndBind (selected : strategyOf (.ok encoded) claim = .ok strategy)
    (failure : String) (store : Store) :
    ∃ events after,
      (provisionAndBind (provisionerAt (.ok encoded) now) strategy claim failure).Runs
        healthyServer store events
        (.returned (setBound now claim (some (publishedOutputs claim)), {}, none)) after ∧
      after.table .resourceClaim = store.table .resourceClaim := by
  obtain ⟨events, after, run, claims⟩ := exists_provision selected store
  refine ⟨events ++ [], after, run.bind ?_, claims⟩
  simp only [validateOutputs_published]
  exact .done _ _

/-- In the phases in which `Provision` is called, the claim is bound. -/
theorem exists_handled_bound (provisioned : IsProvisioned claim)
    (callable : claim.status.phase = .unset ∨ claim.status.phase = .pending ∨
      claim.status.phase = .claiming ∧ Available store claim ∧ SetsReady store) :
    ∃ events after,
      (handleProvisioning (provisionerAt (.ok encoded) now) claim).Runs healthyServer
        store events (.returned (setBound now claim (some (publishedOutputs claim)), {}, none))
        after ∧ after.table .resourceClaim = store.table .resourceClaim := by
  obtain ⟨strategy, selected, registered⟩ := exists_registered provisioned (.ok encoded) now
  rcases callable with unset | pending | ⟨claiming, available, ready⟩
  · simp only [handleProvisioning, registered, unset]
    exact exists_provisionAndBind selected _ store
  · simp only [handleProvisioning, registered, pending]
    exact exists_provisionAndBind selected _ store
  · simp only [handleProvisioning, registered, claiming]
    obtain ⟨early, status, checks, ⟨bound, _⟩ | ⟨_, missing⟩⟩ := getStatus_reports selected ready
    · obtain ⟨late, after, provisions, claims⟩ := exists_provisionAndBind selected
        "Failed to get outputs: " store
      refine ⟨early ++ late, after, checks.bind ?_, claims⟩
      simp only [bound, if_true]
      exact provisions
    · exact absurd available missing

/-- A claim in such a phase is bound from the next reconcile on. -/
theorem Tended.binds (tended : Tended store key claim)
    (callable : claim.status.phase = .unset ∨ claim.status.phase = .pending ∨
      claim.status.phase = .claiming ∧ Available store claim ∧ SetsReady store) (count : Nat) :
    AfterReconciles key (BoundValid key) (count + 1) store := by
  intro encoded now
  have unbound : claim.status.phase ≠ .bound := by
    rcases callable with phase | phase | ⟨phase, _⟩ <;> rw [phase] <;> decide
  obtain ⟨events, middle, handles, claims⟩ := exists_handled_bound tended.provisioned callable
  obtain ⟨after, next, run, cared, status, _, generation, _⟩ :=
    tended.step (shouldReconcile_of_ne tended.kept unbound) handles claims
  have settled : Settled after key next := by
    refine ⟨cared.found, cared.kept, ?_, ?_, ?_, ?_⟩
    · rw [status]
      rfl
    · rw [status]
      rfl
    · rw [status]
      exact validateOutputs_published claim
    · rw [status, generation]
      rfl
  exact ⟨after, run, settled.binds count⟩

/-! ### Failed claims -/

/-- What `GetStatus` looks at is left alone by a write of the claim's status. -/
theorem available_of_tables {after : Store} {next : ResourceClaim}
    (available : Available store claim) (key : next.key = claim.key) (spec : next.spec = claim.spec)
    (others : ∀ kind, kind ≠ .resourceClaim → after.table kind = store.table kind) :
    Available after next := by
  intro target member
  rw [objectsOf_congr key spec] at member
  rw [Store.find?, others _ (ne_resourceClaim_of_mem_objectsOf member)]
  exact available target member

/-- A Failed claim with all its objects becomes Claiming, then Bound. -/
theorem Tended.recovers (tended : Tended store key claim) (failed : claim.status.phase = .failed)
    (available : Available store claim) (ready : SetsReady store) (count : Nat) :
    AfterReconciles key (BoundValid key) (count + 2) store := by
  intro encoded now
  obtain ⟨strategy, selected, registered⟩ := exists_registered tended.provisioned (.ok encoded) now
  have reconciles := shouldReconcile_of_ne tended.kept (by rw [failed]; decide)
  obtain ⟨events, status, checks, ⟨bound, _⟩ | ⟨_, missing⟩⟩ := getStatus_reports selected ready
  · have handles : (handleProvisioning (provisionerAt (.ok encoded) now) claim).Runs
        healthyServer store (events ++ [])
        (.returned (setClaiming now claim Conditions.reasonClaiming
          "Retrying provisioning after recovery", { requeue := true }, none)) store := by
      simp only [handleProvisioning, registered, failed]
      apply checks.bind
      simp only [bound, if_true]
      exact .done _ _
    obtain ⟨after, next, run, cared, claiming, spec, _, others⟩ :=
      tended.step reconciles handles rfl
    refine ⟨after, run, cared.binds (.inr (.inr ⟨?_, ?_, ?_⟩)) count⟩
    · rw [claiming]
      rfl
    · have key : next.key = claim.key :=
        (Store.key_of_find? cared.found).trans (Store.key_of_find? tended.found).symm
      exact available_of_tables available key spec others
    · rw [SetsReady, others .statefulSet (by decide)]
      exact ready
  · exact absurd available missing

/-- A Failed or Claiming claim without some of its objects stays as it is. -/
theorem Tended.stuck (tended : Tended store key claim)
    (phase : claim.status.phase = .failed ∨ claim.status.phase = .claiming)
    (missing : ¬ Available store claim) (ready : SetsReady store) :
    Reconciles (provisionerAt (.ok encoded) now) key store store := by
  obtain ⟨strategy, selected, registered⟩ := exists_registered tended.provisioned (.ok encoded) now
  have unbound : claim.status.phase ≠ .bound := by
    rcases phase with phase | phase <;> rw [phase] <;> decide
  have reconciles := shouldReconcile_of_ne tended.kept unbound
  obtain ⟨events, status, checks, ⟨_, available⟩ | ⟨claiming, _⟩⟩ :=
    getStatus_reports selected ready
  · exact absurd available missing
  · obtain ⟨result, handles⟩ : ∃ result,
        (handleProvisioning (provisionerAt (.ok encoded) now) claim).Runs healthyServer store
          (events ++ []) (.returned (claim, result, none)) store := by
      rcases phase with phase | phase
      · simp only [handleProvisioning, registered, phase]
        refine ⟨{}, checks.bind ?_⟩
        simp only [claiming]
        exact .done _ _
      · simp only [handleProvisioning, registered, phase]
        refine ⟨{ requeueAfter := 10 }, checks.bind ?_⟩
        simp only [claiming]
        exact .done _ _
    exact tended.fixed reconciles handles

/-- Such a claim is not bound by any number of reconciles. -/
theorem Tended.never_binds (tended : Tended store key claim)
    (phase : claim.status.phase = .failed ∨ claim.status.phase = .claiming)
    (missing : ¬ Available store claim) (ready : SetsReady store) (count : Nat) :
    ¬ AfterReconciles key (BoundValid key) count store := by
  intro binds
  have stays : AfterReconciles key (Eq store) count store :=
    AfterReconciles.of_fixed (fun _ _ => tended.stuck phase missing ready) rfl count
  obtain ⟨_, ⟨other, found, bound, _⟩, rfl⟩ := (binds.and stays).exists_good
  obtain rfl := Option.some.inj (tended.found.symm.trans found)
  rw [bound] at phase
  rcases phase with phase | phase <;> cases phase

/-! ### The other phases -/

/-- The health check of a Bound claim leaves it as it is. -/
theorem Tended.bound_fixed (tended : Tended store key claim) (phase : claim.status.phase = .bound)
    (ready : SetsReady store) : Reconciles (provisionerAt (.ok encoded) now) key store store := by
  cases reconciles : shouldReconcile claim with
  | false => exact reconciles_skipped tended.found reconciles
  | true =>
    obtain ⟨strategy, selected, registered⟩ :=
      exists_registered tended.provisioned (.ok encoded) now
    obtain ⟨events, status, checks, reported⟩ := getStatus_reports selected ready
    have unfailed : status.phase ≠ .failed := by
      rcases reported with ⟨reported, _⟩ | ⟨reported, _⟩ <;> rw [reported] <;> decide
    have handles : (handleProvisioning (provisionerAt (.ok encoded) now) claim).Runs
        healthyServer store (events ++ []) (.returned (claim, {}, none)) store := by
      simp only [handleProvisioning, registered, phase]
      apply checks.bind
      simp only [unfailed, if_false]
      exact .done _ _
    exact tended.fixed reconciles handles

/-- A phase outside the schema is reset to Pending. -/
theorem Tended.resets (tended : Tended store key claim) {text : String}
    (phase : claim.status.phase = .other text) (count : Nat) :
    AfterReconciles key (BoundValid key) (count + 2) store := by
  intro encoded now
  obtain ⟨strategy, selected, registered⟩ := exists_registered tended.provisioned (.ok encoded) now
  have reconciles := shouldReconcile_of_ne tended.kept (by rw [phase]; exact nofun)
  have handles : (handleProvisioning (provisionerAt (.ok encoded) now) claim).Runs healthyServer
      store [] (.returned (setPending now claim Conditions.reasonClaimPending
        "Unknown phase, resetting to Pending", { requeue := true }, none)) store := by
    simp only [handleProvisioning, registered, phase]
    exact .done _ _
  obtain ⟨after, next, run, cared, pending, _⟩ := tended.step reconciles handles rfl
  refine ⟨after, run, cared.binds (.inr (.inl ?_)) count⟩
  rw [pending]
  rfl

/-- The server stores the claim with the finalizer, at a new version. -/
theorem serve_addFinalizer (found : store.find? .resourceClaim key = some claim)
    (bare : hasFinalizer claim = false) (kept : claim.isBeingDeleted = false) :
    ∃ added after, serve (.update .resourceClaim (addFinalizer claim)) store = (.ok added, after) ∧
      after.find? .resourceClaim key = some added ∧ hasFinalizer added = true ∧
      added.isBeingDeleted = false ∧ added.spec = claim.spec := by
  let sent : ResourceClaim :=
    { claim with
      metadata :=
        { claim.metadata with
          finalizers := claim.metadata.finalizers ++ [resourceClaimFinalizer] } }
  have isSent : addFinalizer claim = sent := by simp [addFinalizer, bare, sent]
  have carries : hasFinalizer sent = true := by simp [hasFinalizer, sent]
  have changed : sent ≠ claim := fun same => by simp [same, bare] at carries
  have held : sent.isReleased = false := by
    have unmarked : sent.metadata.deletionTimestamp = none := by
      simpa [Resource.isBeingDeleted] using kept
    simp [Resource.isReleased, unmarked]
  have named : sent.key = key := Store.key_of_find? found
  have taken : claim.updatedBy sent = sent := by simp [Resource.updatedBy, sent]
  have version : sent.metadata.resourceVersion = claim.metadata.resourceVersion := rfl
  refine ⟨(store.commit .resourceClaim sent).1, (store.commit .resourceClaim sent).2, ?_,
    ?_, carries, kept, rfl⟩
  · rw [← named] at found
    simp only [isSent, serve, Store.replaceRead, found, version, if_true, Store.replace, taken,
      changed, if_false]
  · rw [← named]
    exact store.find?_commit_self .resourceClaim held

/-- A claim without the finalizer gets it and becomes Pending. -/
theorem initializes (found : store.find? .resourceClaim key = some claim)
    (bare : hasFinalizer claim = false) (kept : claim.isBeingDeleted = false)
    (provisioned : IsProvisioned claim) (reconciles : shouldReconcile claim = true) (count : Nat) :
    AfterReconciles key (BoundValid key) (count + 2) store := by
  intro encoded now
  obtain ⟨added, middle, updates, stored, finalizer, unmarked, spec⟩ :=
    serve_addFinalizer found bare kept
  have named : added.key = key := Store.key_of_find? stored
  obtain ⟨next, after, writes, written⟩ := exists_statusWritten
    (show middle.find? .resourceClaim (setPending now added Conditions.reasonClaimPending
      "Initializing resource claim").key = some added from named.symm ▸ stored) rfl
  have run : Reconciles (provisionerAt (.ok encoded) now) key store after := by
    apply reconciles_of_found found
    simp only [reconciles, kept, bare, Bool.false_eq_true, if_false, if_true]
    exact .call updates (.call writes (.done _ _))
  have cared : Tended after key next := by
    refine ⟨?_, ?_, ?_, ?_⟩
    · rw [← named]
      exact written.finds
    · rw [hasFinalizer, written.finalizers]
      exact finalizer
    · rw [Resource.isBeingDeleted, written.deletionTimestamp]
      exact unmarked
    · rw [IsProvisioned, written.spec, spec]
      exact provisioned
  refine ⟨after, run, cared.binds (.inr (.inl ?_)) count⟩
  rw [written.status]
  rfl

end

/-- A claim that was reached by provisioner runs is Bound with valid outputs after three
reconciles exactly if it is not Failed or Claiming, with the finalizer, while some of its
objects are missing. -/
theorem recovers_iff {system : System Nat Call GoError Store}
    (reached : Reachable provisionerRules (Store.EmptyStatuses .resourceClaim) system)
    {key : NamespacedName} {claim : ResourceClaim}
    (found : system.state.find? .resourceClaim key = some claim)
    (kept : claim.isBeingDeleted = false) (provisioned : IsProvisioned claim)
    (ready : SetsReady system.state) :
    AfterReconciles key (BoundValid key) 3 system.state ↔
      (hasFinalizer claim = true →
        claim.status.phase = .failed ∨ claim.status.phase = .claiming →
        Available system.state claim) := by
  have rule := outputsRule_of_reachable reached claim (Store.mem_of_find? found)
  have boundValid : claim.status.phase = .bound → BoundValid key system.state := by
    intro bound
    have available := rule.bound_iff_available.mp bound
    exact ⟨claim, found, bound, available,
      rule.valid (rule.available_iff_outputs.mp available)⟩
  constructor
  · intro binds finalizer phase
    have tended : Tended system.state key claim := ⟨found, finalizer, kept, provisioned⟩
    by_contra missing
    exact tended.never_binds phase missing ready 3 binds
  · intro available
    cases finalizer : hasFinalizer claim with
    | true =>
      have tended : Tended system.state key claim := ⟨found, finalizer, kept, provisioned⟩
      cases phase : claim.status.phase with
      | unset => exact tended.binds (.inl phase) 2
      | pending => exact tended.binds (.inr (.inl phase)) 2
      | claiming =>
        exact tended.binds
          (.inr (.inr ⟨phase, available finalizer (.inr phase), ready⟩)) 2
      | bound =>
        exact AfterReconciles.of_fixed (fun _ _ => tended.bound_fixed phase ready)
          (boundValid phase) 3
      | failed => exact tended.recovers phase (available finalizer (.inl phase)) ready 1
      | other text => exact tended.resets phase 1
    | false =>
      cases reconciles : shouldReconcile claim with
      | true => exact initializes found finalizer kept provisioned reconciles 1
      | false =>
        have bound : claim.status.phase = .bound := by
          by_contra unbound
          rw [shouldReconcile_of_ne kept unbound] at reconciles
          cases reconciles
        exact AfterReconciles.of_fixed (fun _ _ => reconciles_skipped found reconciles)
          (boundValid bound) 3

/-! ### A Provision that is interrupted -/

def cacheKey : NamespacedName := ⟨"default", "web-cache"⟩

def unansweredCall : GoError where
  text := "connection refused"

/-- The cluster after a reconcile of the claim whose calls fail as scripted. -/
@[irreducible] def afterScript (script : List (Option GoError)) (store : Store) : Store :=
  ((reconcileClaim quietProvisioner cacheKey).discard.execute serve script store).2.2

def cacheStore : Store := Store.empty.insert .resourceClaim (claimNamed "web-cache" "redis")

theorem emptyStatuses_cacheStore : cacheStore.EmptyStatuses .resourceClaim :=
  emptyStatuses_insert _ rfl

theorem reachable_afterScript
    (reached : Reachable provisionerRules (Store.EmptyStatuses .resourceClaim)
      { state := store, thread := fun _ => none }) (script : List (Option GoError)) :
    Reachable provisionerRules (Store.EmptyStatuses .resourceClaim)
      { state := afterScript script store, thread := fun _ => none } := by
  unfold afterScript
  refine reached.run 0 rfl ?_ (runs_execute serve _ script store) ?_
  · exact ⟨quietProvisioner, _, registerStrategies_leavesClaims _, rfl⟩
  · exact .of_forall (fun _ _ => trivial) _ _

/-- The second reconcile creates the Secret but cannot store the status; the third one
cannot look at the Secret and gives up. -/
@[irreducible] def givenUpStore : Store :=
  afterScript [none, some unansweredCall]
    (afterScript [none, none, none, some unansweredCall] (afterScript [] cacheStore))

/-- The second reconcile cannot create the Secret. -/
@[irreducible] def interruptedStore : Store :=
  afterScript [none, none, some unansweredCall] (afterScript [] cacheStore)

/-- The claim is in care, Failed, and there is no StatefulSet. -/
def failedCache (store : Store) : Bool :=
  (store.find? .resourceClaim cacheKey).any (fun claim =>
    isHandled claim && claim.status.phase = .failed && claim.metadata.name = "web-cache" &&
      claim.metadata.ns = "default" && claim.spec.type = "redis") &&
  (store.table .statefulSet).rows.isEmpty

theorem exists_of_failedCache (failed : failedCache store = true) :
    ∃ claim, Tended store cacheKey claim ∧ claim.status.phase = .failed ∧
      objectsOf claim = [(.secret, ⟨"default", "web-cache-redis-secret"⟩)] ∧
      SetsReady store := by
  unfold failedCache at failed
  rw [Bool.and_eq_true] at failed
  obtain ⟨there, empty⟩ := failed
  obtain ⟨claim, found, checked⟩ := (Option.any_eq_true _ _).mp there
  simp only [Bool.and_eq_true, isHandled_iff, decide_eq_true_eq] at checked
  obtain ⟨⟨⟨⟨⟨finalizer, kept, provisioned⟩, phase⟩, name⟩, ns⟩, type⟩ := checked
  refine ⟨claim, ⟨found, finalizer, kept, provisioned⟩, phase, ?_, ?_⟩
  · rw [objectsOf_redis type, RedisStrategy.objects, keyBeside, RedisStrategy.secretName, name, ns]
    rfl
  · rw [SetsReady, List.isEmpty_iff.mp empty]
    exact List.forall_mem_nil _

/-- A claim that failed although its Secret exists is bound again. -/
theorem givenUp_recovers : AfterReconciles cacheKey (BoundValid cacheKey) 3 givenUpStore := by
  obtain ⟨claim, tended, failed, objects, ready⟩ :=
    exists_of_failedCache (show failedCache givenUpStore = true by decide +kernel)
  have reached : Reachable provisionerRules (Store.EmptyStatuses .resourceClaim)
      { state := givenUpStore, thread := fun _ => none } := by
    unfold givenUpStore
    exact reachable_afterScript (reachable_afterScript
      (reachable_afterScript (.initial emptyStatuses_cacheStore) _) _) _
  refine (recovers_iff reached tended.found tended.kept tended.provisioned ready).mpr
    fun _ _ target member => ?_
  rw [objects] at member
  obtain rfl := List.mem_singleton.mp member
  show (givenUpStore.find? .secret
    ⟨"default", "web-cache-redis-secret"⟩).isSome = true
  decide +kernel

/-- A claim whose Secret could not be created stays Failed. -/
theorem interrupted_stays_failed :
    ∃ claim,
      Reachable provisionerRules (Store.EmptyStatuses .resourceClaim)
        { state := interruptedStore, thread := fun _ => none } ∧
      Tended interruptedStore cacheKey claim ∧ claim.status.phase = .failed ∧
      SetsReady interruptedStore ∧
      ¬ AfterReconciles cacheKey (BoundValid cacheKey) 3 interruptedStore := by
  obtain ⟨claim, tended, failed, objects, ready⟩ :=
    exists_of_failedCache (show failedCache interruptedStore = true by decide +kernel)
  have reached : Reachable provisionerRules (Store.EmptyStatuses .resourceClaim)
      { state := interruptedStore, thread := fun _ => none } := by
    unfold interruptedStore
    exact reachable_afterScript (reachable_afterScript (.initial emptyStatuses_cacheStore) _) _
  refine ⟨claim, reached, tended, failed, ready, tended.never_binds (.inl failed) ?_ ready 3⟩
  intro available
  have there := available (.secret, ⟨"default", "web-cache-redis-secret"⟩)
    (by rw [objects]; exact .head _)
  have absent : (interruptedStore.find? .secret
      ⟨"default", "web-cache-redis-secret"⟩).isSome = false := by
    decide +kernel
  have absurdly := absent.symm.trans there
  cases absurdly

end ScoreOrchestrator.Provisioner
