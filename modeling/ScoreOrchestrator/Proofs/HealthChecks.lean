/-
Module: Proofs.HealthChecks
Purpose: What one reconcile of a claim stores when every call is carried out, and when
  the health of a Bound claim is looked at.
-/
import ScoreOrchestrator.Proofs.BoundClaims

namespace ScoreOrchestrator.Provisioner

open Foundation

/-- One reconcile on a server that carries out every call. -/
def Reconciles (settings : ProvisionerSettings) (key : NamespacedName) (before after : Store) :
    Prop :=
  ∃ events result, (reconcileClaim settings key).Runs healthyServer before events
    (.returned result) after

section

variable {settings : ProvisionerSettings} {key : NamespacedName} {claim : ResourceClaim}
  {store middle : Store} {events : List ApiEvent}

/-- There is one way for it to go. -/
theorem Reconciles.unique {after other : Store} (reconciles : Reconciles settings key store after)
    (again : Reconciles settings key store other) : after = other := by
  obtain ⟨_, _, run⟩ := reconciles
  obtain ⟨_, _, runAgain⟩ := again
  exact (run.returned_unique runAgain).2

/-- What a handler makes of a claim is about the version that was read. -/
theorem Moved.metadata {published : Option ResourceClaimOutputs → Prop} {next : ResourceClaim}
    (moved : Moved settings published claim next) : next.metadata = claim.metadata := by
  cases moved with
  | unchanged => rfl
  | unbound phase different reason message => rfl
  | bound outputs valid returned => rfl

theorem handleProvisioning_metadata {handled : Handled}
    (run : (handleProvisioning settings claim).Runs healthyServer store events
      (.returned handled) middle) : handled.1.metadata = claim.metadata := by
  have returns : ∀ strategy,
      settings.strategySelector.getStrategy claim.spec.type = .ok strategy →
        ReturnsOnly (fun _ => True) strategy claim := fun strategy _ =>
    (Program.yields_true _).mono fun _ _ _ _ => trivial
  exact (run.of_yields (handleProvisioning_moves returns)).metadata

section

variable {after : Store} {result : Controller.ReconcileResult × Option GoError}
  (found : store.find? .resourceClaim key = some claim)
  (rest : (if shouldReconcile claim then
      if claim.isBeingDeleted then handleDeletion settings claim
      else if hasFinalizer claim then provisionClaim settings claim
      else initializeClaim settings claim
    else pure ({}, none)).Runs healthyServer store events (.returned result) after)

include found rest

/-- The reconcile of a claim that is there goes on with the version read. -/
theorem runs_reconcile_of_found :
    ∃ read, (reconcileClaim settings key).Runs healthyServer store (read :: events)
      (.returned result) after :=
  ⟨_, .call (serve_get_some found) rest⟩

theorem reconciles_of_found : Reconciles settings key store after := by
  obtain ⟨read, run⟩ := runs_reconcile_of_found found rest
  exact ⟨_, result, run⟩

end

/-- A claim that needs no reconcile stays as it is. -/
theorem reconciles_skipped (found : store.find? .resourceClaim key = some claim)
    (skips : shouldReconcile claim = false) : Reconciles settings key store store := by
  apply reconciles_of_found found
  simp only [skips, Bool.false_eq_true, if_false]
  exact .done _ _

/-- The status of the version that is stored can be written. -/
theorem exists_statusWritten {kind : Kind} {object stored : kind.Object}
    (found : store.find? kind object.key = some stored)
    (version : object.metadata.resourceVersion = stored.metadata.resourceVersion) :
    ∃ next after, serve (.updateStatus kind object) store = (.ok next, after) ∧
      StatusWritten object stored next store after := by
  obtain ⟨next, after, replaced⟩ : ∃ next after,
      store.replace kind stored (stored.statusUpdatedBy object) = (.ok next, after) := by
    unfold Store.replace
    split
    · exact ⟨_, _, rfl⟩
    · exact ⟨_, _, rfl⟩
  have served : serve (.updateStatus kind object) store = (.ok next, after) := by
    simp only [serve, Store.replaceRead, found, version, if_true, replaced]
  obtain ⟨other, written⟩ := apiServer_statusWritten (.inl served)
  obtain rfl := Option.some.inj (found.symm.trans written.found)
  exact ⟨next, after, served, written⟩

/-- A claim that is handled gets the status that its handler has made. -/
theorem exists_reconciles_handled (found : store.find? .resourceClaim key = some claim)
    (finalizer : hasFinalizer claim = true) (kept : claim.isBeingDeleted = false)
    (reconciles : shouldReconcile claim = true) {handled : Handled}
    (handles : (handleProvisioning settings claim).Runs healthyServer store events
      (.returned handled) middle) (held : middle.find? .resourceClaim key = some claim) :
    ∃ after next, Reconciles settings key store after ∧
      @StatusWritten .resourceClaim handled.1 claim next middle after ∧
      ∀ kind, kind ≠ .resourceClaim → after.table kind = middle.table kind := by
  have metadata := handleProvisioning_metadata handles
  have named : handled.1.key = key := by
    rw [← Store.key_of_find? held, Resource.key, metadata]
    rfl
  obtain ⟨next, after, served, written⟩ :=
    exists_statusWritten (named.symm ▸ held) (by rw [metadata])
  refine ⟨after, next, ?_, written, fun kind different => ?_⟩
  · have provisions : (provisionClaim settings claim).Runs healthyServer store _
        (.returned (getReconcileResult next handled.2.2)) after :=
      handles.bind (.call served (.done _ _))
    apply reconciles_of_found found
    simp only [reconciles, kept, finalizer, Bool.false_eq_true, if_false, if_true]
    exact provisions
  · exact (apiServer_step (.inl served)).table_of_ne different

end

/-! ### Bound claims -/

/-- A claim is stored as Failed, without outputs. -/
def StoredFailed (store : Store) (key : NamespacedName) : Prop :=
  ∃ claim, store.find? .resourceClaim key = some claim ∧ claim.status.phase = .failed ∧
    claim.status.outputs = none ∧ claim.status.outputsAvailable = false

/-- The reconcile of a Bound claim whose strategy finds it failed stores that exactly if
the generation of the claim has changed since it was observed. -/
theorem bound_health_checked_iff {settings : ProvisionerSettings} {key : NamespacedName}
    {claim : ResourceClaim} {strategy : Strategy} {status : StrategyStatus} {store middle : Store}
    {events : List ApiEvent} (found : store.find? .resourceClaim key = some claim)
    (bound : claim.status.phase = .bound) (finalizer : hasFinalizer claim = true)
    (kept : claim.isBeingDeleted = false)
    (registered : settings.strategySelector.getStrategy claim.spec.type = .ok strategy)
    (reports : (strategy.getStatus claim).Runs healthyServer store events
      (.returned (status, none)) middle) (unhealthy : status.phase = .failed)
    (held : middle.find? .resourceClaim key = some claim) :
    (∃ after, Reconciles settings key store after) ∧
    ∀ after, Reconciles settings key store after →
      (StoredFailed after key ↔ claim.status.observedGeneration ≠ claim.metadata.generation) := by
  by_cases observed : claim.status.observedGeneration = claim.metadata.generation
  · -- the claim is skipped and stays Bound
    have skips : shouldReconcile claim = false := by
      simp [shouldReconcile, kept, bound, observed]
    have run : Reconciles settings key store store := reconciles_skipped found skips
    refine ⟨⟨store, run⟩, fun after again => ?_⟩
    obtain rfl := run.unique again
    simp only [observed, ne_eq, not_true_eq_false, iff_false]
    rintro ⟨other, foundOther, failed, _⟩
    obtain rfl := Option.some.inj (found.symm.trans foundOther)
    rw [bound] at failed
    cases failed
  · have reconciles : shouldReconcile claim = true := by
      simp [shouldReconcile, kept, bound, observed]
    have handles : (handleProvisioning settings claim).Runs healthyServer store
        (events ++ []) (.returned (setFailed settings.now claim status.reason status.message,
          {}, some { text := "resource became unhealthy: " ++ status.message })) middle := by
      simp only [handleProvisioning, registered, bound]
      apply reports.bind
      simp only [unhealthy, if_true]
      exact .done _ _
    obtain ⟨after, next, run, written, _⟩ :=
      exists_reconciles_handled found finalizer kept reconciles handles held
    refine ⟨⟨after, run⟩, fun other again => ?_⟩
    obtain rfl := run.unique again
    refine iff_of_true ⟨next, ?_, ?_⟩ observed
    · have named : (setFailed settings.now claim status.reason status.message).key = key :=
        Store.key_of_find? found
      rw [← named]
      exact written.finds
    · rw [written.status]
      exact ⟨rfl, rfl, rfl⟩

/-! ### A resource that fails -/

/-- A strategy whose resources are found failed. -/
def brokenStrategy : Strategy where
  getType := "redis"
  provision claim := pure (.ok (some (publishedOutputs claim)))
  deprovision _ := pure (.ok ())
  getStatus _ := pure
    ({ phase := .failed, reason := "OutOfMemory", message := "the instance is gone" }, none)

def brokenProvisioner : ProvisionerSettings where
  strategySelector := Selector.new.registerStrategy brokenStrategy
  now := 7

/-- A Bound claim whose status is about its first generation. -/
def boundClaim (generation : Nat) : ResourceClaim where
  metadata :=
    { name := "web-cache", ns := "default", uid := "u1", generation
      finalizers := [resourceClaimFinalizer], resourceVersion := 1 }
  spec := { workloadRef := ⟨"default", "web"⟩, key := "cache", type := "redis" }
  status :=
    { phase := .bound
      outputs := some { secretRef := some { name := "web-cache-redis-secret" } }
      outputsAvailable := true
      observedGeneration := 1 }

@[irreducible] def boundStore (generation : Nat) : Store :=
  Store.empty.insert .resourceClaim (boundClaim generation)

/-- After an edit of the claim the failure is noticed. -/
theorem boundClaim_health_checked :
    ∃ after, Reconciles brokenProvisioner (boundClaim 2).key (boundStore 2) after ∧
      StoredFailed after (boundClaim 2).key := by
  have found : (boundStore 2).find? .resourceClaim (boundClaim 2).key =
      some (boundClaim 2) := by decide +kernel
  obtain ⟨⟨after, reconciles⟩, checks⟩ := bound_health_checked_iff found rfl (by decide) rfl
    (show brokenProvisioner.strategySelector.getStrategy (boundClaim 2).spec.type =
      .ok brokenStrategy from rfl) (.done _ (boundStore 2)) rfl found
  exact ⟨after, reconciles, (checks after reconciles).mpr (by decide)⟩

/-- Without an edit the claim stays Bound, with its outputs, although its strategy finds
it failed. -/
theorem boundClaim_not_health_checked :
    ∃ status, status.phase = .failed ∧
      (brokenStrategy.getStatus (boundClaim 1)).Runs healthyServer (boundStore 1) []
        (.returned (status, none)) (boundStore 1) ∧
      ∃ after claim, Reconciles brokenProvisioner (boundClaim 1).key (boundStore 1) after ∧
        after.find? .resourceClaim (boundClaim 1).key = some claim ∧
        claim.status.phase = .bound ∧ claim.status.outputsAvailable = true := by
  have found : (boundStore 1).find? .resourceClaim (boundClaim 1).key =
      some (boundClaim 1) := by decide +kernel
  exact ⟨_, rfl, .done _ _, boundStore 1, boundClaim 1,
    reconciles_skipped found (by decide), found, rfl, rfl⟩

end ScoreOrchestrator.Provisioner
