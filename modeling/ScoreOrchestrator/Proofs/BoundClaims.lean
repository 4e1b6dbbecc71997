/-
Module: Proofs.BoundClaims
Purpose: Whether a reconcile that leaves a claim Bound without an error has brought
  its status up to the current spec.
-/
import ScoreOrchestrator.Proofs.ClaimOutputs

namespace ScoreOrchestrator.Provisioner

open Foundation Program

variable {claim : ResourceClaim}

/-- The status is about the current generation, and its outputs are those of the
current type. -/
structure UpToDate (claim : ResourceClaim) : Prop where
  generation : claim.status.observedGeneration = claim.metadata.generation
  outputs : claim.status.outputs = some (publishedOutputs claim)

/-- The controller with the strategies of the repository. -/
def provisionerAt (random : RandomText) (now : Time) : ProvisionerSettings where
  strategySelector := registerStrategies random
  now := now

/-- However a reconcile goes, if it returns no error and the claim is Bound
afterwards, its status is up to date. -/
def TakesEffect (store : Store) (key : NamespacedName) : Prop :=
  ∀ random now events result after,
    (reconcileClaim (provisionerAt random now) key).Runs apiServer store events
      (.returned (result, none)) after →
    ∀ claim, after.find? .resourceClaim key = some claim → claim.status.phase = .bound →
      UpToDate claim

/-! ### What a reconcile writes -/

/-- The status of a claim may be left as it is; a newly bound one is up to date. -/
structure Refreshed (claim next : ResourceClaim) : Prop where
  key : next.key = claim.key
  generation : next.metadata.generation = claim.metadata.generation
  spec : next.spec = claim.spec
  status : next.status.phase = .bound → next.status = claim.status ∨ UpToDate next

theorem Moved.refreshed {settings : ProvisionerSettings} {next : ResourceClaim}
    (moved : Moved settings (fun given => given = some (publishedOutputs claim)) claim next) :
    Refreshed claim next := by
  cases moved with
  | unchanged => exact ⟨rfl, rfl, rfl, fun _ => .inl rfl⟩
  | unbound phase different => exact ⟨rfl, rfl, rfl, fun bound => absurd bound different⟩
  | bound outputs _ returned => exact ⟨rfl, rfl, rfl, fun _ => .inr ⟨rfl, returned⟩⟩

theorem handleProvisioning_refreshes (random : RandomText) (now : Time) (claim : ResourceClaim) :
    (handleProvisioning (provisionerAt random now) claim).Yields fun handled =>
      Refreshed claim handled.1 := by
  have returns : ∀ strategy,
      (provisionerAt random now).strategySelector.getStrategy claim.spec.type =
        .ok strategy →
      ReturnsOnly (fun given => given = some (publishedOutputs claim)) strategy claim :=
    fun strategy selected => strategyOf_returns selected
  exact (handleProvisioning_moves returns).mono fun _ moved => moved.refreshed

/-- Whether a claim is up to date is a matter of its key, generation, spec and
status. -/
theorem UpToDate.congr {other : ResourceClaim} (upToDate : UpToDate claim)
    (key : other.key = claim.key)
    (generation : other.metadata.generation = claim.metadata.generation)
    (spec : other.spec = claim.spec) (status : other.status = claim.status) : UpToDate other := by
  have published : publishedOutputs other = publishedOutputs claim := by
    have name : other.metadata.name = claim.metadata.name := congrArg NamespacedName.name key
    simp only [publishedOutputs, secretOf, keyBeside, name, spec]
  constructor
  · rw [status, generation]
    exact upToDate.generation
  · rw [status, published]
    exact upToDate.outputs

/-- Stored with the status of a refreshed claim, a claim is refreshed. -/
theorem Refreshed.stored {handled next : ResourceClaim} (refreshed : Refreshed claim handled)
    (key : next.key = claim.key) (generation : next.metadata.generation = claim.metadata.generation)
    (spec : next.spec = claim.spec) (status : next.status = handled.status) :
    Refreshed claim next where
  key := key
  generation := generation
  spec := spec
  status bound := by
    rw [status] at bound ⊢
    refine (refreshed.status bound).imp id fun upToDate => ?_
    exact upToDate.congr (key.trans refreshed.key.symm)
      (generation.trans refreshed.generation.symm) (spec.trans refreshed.spec.symm) status

theorem getReconcileResult_err (claim : ResourceClaim) (err : Option GoError) :
    (getReconcileResult claim err).2 = err := by
  cases err with
  | some fault => rfl
  | none => simp only [getReconcileResult]; split <;> rfl

section

variable {store after : Store} {key : NamespacedName} {claim : ResourceClaim}
  {random : RandomText} {now : Time} {events : List ApiEvent}
  {result : Controller.ReconcileResult}

/-- A reconcile without an error has written what the handler made of the claim. -/
theorem provisionClaim_writes (found : store.find? .resourceClaim key = some claim)
    (run : (provisionClaim (provisionerAt random now) claim).Runs apiServer store
      events (.returned (result, none)) after) :
    ∃ next, after.find? .resourceClaim key = some next ∧ Refreshed claim next := by
  obtain ⟨_, named⟩ := Store.find?_eq_some.mp found
  obtain ⟨⟨handled, _, err⟩, early, late, middle, _, head, tail⟩ := run.exists_of_bind
  have refreshed := head.of_yields (handleProvisioning_refreshes random now claim)
  have left := table_of_makes_leaves (handleProvisioning_leaves
    (registerStrategies_leavesClaims random) claim) head
  obtain ⟨reply, _, _, rfl, served, rest⟩ := tail.of_call
  cases reply with
  | error statusErr =>
    -- the error of the handler is returned, or else this one
    obtain ⟨returned, _⟩ := rest.returned_of_done
    have failed := congrArg Prod.snd returned
    rw [getReconcileResult_err] at failed
    cases err <;> cases failed
  | ok value =>
    obtain ⟨stored, written⟩ := apiServer_statusWritten served
    have same : stored = claim := by
      have foundStored := written.found
      rw [refreshed.key, named, Store.find?, left] at foundStored
      exact Option.some.inj (foundStored.symm.trans found)
    subst same
    have finds := written.finds
    rw [refreshed.key, named] at finds
    obtain ⟨_, rfl⟩ := rest.returned_of_done
    refine ⟨value, finds, refreshed.stored ?_ written.generation written.spec
      written.status⟩
    rw [named]
    exact Store.key_of_find? finds

/-- A reconcile without an error leaves the claim as it is or has refreshed it. -/
theorem reconcileClaim_refreshes (found : store.find? .resourceClaim key = some claim)
    (finalizer : hasFinalizer claim = true) (kept : claim.isBeingDeleted = false)
    (run : (reconcileClaim (provisionerAt random now) key).Runs apiServer store
      events (.returned (result, none)) after) :
    ∃ next, after.find? .resourceClaim key = some next ∧ Refreshed claim next := by
  have unchanged : Refreshed claim claim := ⟨rfl, rfl, rfl, fun _ => .inl rfl⟩
  obtain ⟨reply, _, _, rfl, served, rest⟩ := run.of_call
  simp only [done_bind] at rest
  cases reply with
  | error fault =>
    obtain rfl := apiServer_of_error served
    dsimp only at rest
    split at rest <;> cases rest
    exact ⟨claim, found, unchanged⟩
  | ok got =>
    obtain ⟨foundGot, rfl⟩ := apiServer_get_ok served
    obtain rfl := Option.some.inj (foundGot.symm.trans found)
    dsimp only at rest
    split at rest
    · simp only [kept, Bool.false_eq_true, if_false] at rest
      exact provisionClaim_writes found rest
    · cases rest
      exact ⟨got, found, unchanged⟩

end

/-! ### A claim that was Bound before -/

/-- Every strategy looks for a Secret first; one that is not there yet is no
error. -/
theorem exists_run_getStatus {random : RandomText} {strategy : Strategy}
    (selected : strategyOf random claim = .ok strategy) (store : Store) :
    ∃ events status, status.phase = .claiming ∧
      (strategy.getStatus claim).Runs apiServer store events (.returned (status, none)) store := by
  have missing {answer : Type} (request : Call answer) :
      apiServer request store (.error (.objectNotFound .secret (secretOf claim))) store :=
    .inr ⟨⟨_, rfl⟩, rfl⟩
  rcases strategyOf_cases selected with ⟨_, rfl⟩ | ⟨_, rfl⟩ | ⟨_, rfl⟩
  · exact ⟨_, _, rfl, .call (missing _) (.done _ _)⟩
  · exact ⟨_, _, rfl, .call (missing _) (.done _ _)⟩
  · exact ⟨_, _, rfl, .call (missing _) (.done _ _)⟩

/-- A provisioner has the strategy of every claim that it provisions. -/
theorem exists_registered (provisioned : IsProvisioned claim) (random : RandomText) (now : Time) :
    ∃ strategy, strategyOf random claim = .ok strategy ∧
      (provisionerAt random now).strategySelector.getStrategy claim.spec.type = .ok strategy := by
  obtain ⟨strategy, selected⟩ := exists_strategyOf provisioned random
  exact ⟨strategy, selected, selected⟩

/-- The handler of a Bound claim can leave it as it is and report no error. -/
theorem exists_run_handleProvisioning (provisioned : IsProvisioned claim)
    (bound : claim.status.phase = .bound) (random : RandomText) (now : Time) (store : Store) :
    ∃ events, (handleProvisioning (provisionerAt random now) claim).Runs apiServer store events
      (.returned (claim, {}, none)) store := by
  obtain ⟨strategy, selected, selects⟩ := exists_registered provisioned random now
  obtain ⟨events, status, claiming, statusRun⟩ := exists_run_getStatus selected store
  simp only [handleProvisioning, selects, bound]
  refine ⟨events ++ [], statusRun.bind ?_⟩
  simp only [claiming]
  exact .done _ _

/-- A reconcile can leave a Bound claim as it is and return no error, whatever its
generation and type. -/
theorem exists_run_unchanged {store : Store} {key : NamespacedName}
    (found : store.find? .resourceClaim key = some claim) (finalizer : hasFinalizer claim = true)
    (kept : claim.isBeingDeleted = false) (provisioned : IsProvisioned claim)
    (bound : claim.status.phase = .bound) (random : RandomText) (now : Time) :
    ∃ events result, (reconcileClaim (provisionerAt random now) key).Runs apiServer
      store events (.returned (result, none)) store := by
  obtain ⟨_, named⟩ := Store.find?_eq_some.mp found
  have got : serve (.get .resourceClaim key) store = (.ok claim, store) := serve_get_some found
  have written : serve (.updateStatus .resourceClaim claim) store = (.ok claim, store) :=
    serve_updateStatus_self (named ▸ found)
  obtain ⟨_, handledRun⟩ := exists_run_handleProvisioning provisioned bound random now store
  have provisions : (provisionClaim (provisionerAt random now) claim).Runs apiServer
      store _ (.returned (getReconcileResult claim none)) store :=
    handledRun.bind (.call (.inl written) (.done _ _))
  have returned : getReconcileResult claim none = ((getReconcileResult claim none).1, none) :=
    Prod.ext rfl (getReconcileResult_err claim none)
  rw [returned] at provisions
  cases reconciles : shouldReconcile claim with
  | false =>
    refine ⟨[_], {}, .call (.inl got) ?_⟩
    simp only [done_bind, reconciles, Bool.false_eq_true, if_false]
    exact .done _ _
  | true =>
    have handles : (if shouldReconcile claim then
          if claim.isBeingDeleted then handleDeletion (provisionerAt random now) claim
          else if hasFinalizer claim then provisionClaim (provisionerAt random now) claim
          else initializeClaim (provisionerAt random now) claim
        else pure ({}, none)) = provisionClaim (provisionerAt random now) claim := by
      simp only [reconciles, kept, finalizer, Bool.false_eq_true, if_false, if_true]
    rw [← handles] at provisions
    exact ⟨_, _, .call (.inl got) provisions⟩

/-- A reconcile brings a claim up to date unless the claim is Bound: then it must be
up to date already. -/
theorem takesEffect_iff {store : Store} {key : NamespacedName} {claim : ResourceClaim}
    (found : store.find? .resourceClaim key = some claim) (finalizer : hasFinalizer claim = true)
    (kept : claim.isBeingDeleted = false) (provisioned : IsProvisioned claim) :
    TakesEffect store key ↔ (claim.status.phase = .bound → UpToDate claim) := by
  constructor
  · intro takes bound
    obtain ⟨_, _, run⟩ := exists_run_unchanged found finalizer kept provisioned bound
      (.ok "") 0
    exact takes _ _ _ _ _ run claim found bound
  · intro already random now events result after run other foundOther bound
    obtain ⟨next, foundNext, refreshed⟩ := reconcileClaim_refreshes found finalizer kept run
    obtain rfl := Option.some.inj (foundNext.symm.trans foundOther)
    rcases refreshed.status bound with same | upToDate
    · have before := already (same ▸ bound)
      exact before.congr refreshed.key refreshed.generation refreshed.spec same
    · exact upToDate

/-! ### A claim that changes its type -/

/-- A claim that the controller has put its finalizer on. -/
def heldClaim : ResourceClaim := addFinalizer (claimNamed "web-cache" "redis")

def heldStore : Store := Store.empty.insert .resourceClaim heldClaim

/-- The cluster after one reconcile. -/
@[irreducible] def afterReconcile (store : Store) : Store :=
  ((reconcileClaim (provisionerAt (.ok "c2VjcmV0") 2) heldClaim.key).execute serve []
    store).2.2

/-- The cluster after the orchestrator has changed the type of the claim. -/
@[irreducible] def afterRetyping (type : String) (store : Store) : Store :=
  match store.find? .resourceClaim heldClaim.key with
  | none => store
  | some claim =>
    (serve (.update .resourceClaim
      { claim with spec := { claim.spec with type } }) store).2

/-- A claim for which the reconcile is to take effect: with the finalizer, not being
deleted and with a registered type. -/
def isHandled (claim : ResourceClaim) : Bool :=
  hasFinalizer claim && !claim.isBeingDeleted &&
    ["postgres", "redis", "secret"].contains claim.spec.type

theorem isHandled_iff :
    isHandled claim = true ↔ hasFinalizer claim = true ∧ claim.isBeingDeleted = false ∧
      IsProvisioned claim := by
  simp [isHandled, IsProvisioned, and_assoc]

/-- The reconcile of a new claim takes effect. -/
theorem takesEffect_new :
    TakesEffect heldStore heldClaim.key ∧
      ((afterReconcile heldStore).find? .resourceClaim heldClaim.key).any
        (fun claim => claim.status.phase = .bound) = true := by
  have present : (heldStore.find? .resourceClaim heldClaim.key).any
      (fun claim => isHandled claim && claim.status.phase ≠ .bound) = true := by
    decide +kernel
  obtain ⟨claim, found, checked⟩ := Option.any_eq_true _ _ |>.mp present
  simp only [Bool.and_eq_true, isHandled_iff, decide_eq_true_eq] at checked
  obtain ⟨⟨finalizer, kept, provisioned⟩, unbound⟩ := checked
  exact ⟨(takesEffect_iff found finalizer kept provisioned).mpr fun bound =>
    absurd bound unbound, by decide +kernel⟩

/-- The claim is bound as redis and then becomes a secret claim; the next reconcile
reports no error, and the claim stays Bound to the redis Secret at the old
generation. -/
theorem retyped_claim_stays_bound :
    let store := afterRetyping "secret" (afterReconcile heldStore)
    ∃ claim, store.find? .resourceClaim heldClaim.key = some claim ∧
      hasFinalizer claim = true ∧ claim.isBeingDeleted = false ∧ IsProvisioned claim ∧
      ¬ TakesEffect store heldClaim.key := by
  intro store
  have present : (store.find? .resourceClaim heldClaim.key).any isHandled = true := by
    decide +kernel
  obtain ⟨claim, found, checked⟩ := Option.any_eq_true _ _ |>.mp present
  obtain ⟨finalizer, kept, provisioned⟩ := isHandled_iff.mp checked
  refine ⟨claim, found, finalizer, kept, provisioned, fun takes => ?_⟩
  have run := runs_execute serve
    (reconcileClaim (provisionerAt (.ok "c2VjcmV0") 2) heldClaim.key) [] store
  have quiet : ((reconcileClaim (provisionerAt (.ok "c2VjcmV0") 2)
      heldClaim.key).execute serve [] store).2.1.passes
        (fun returned => returned.2 = none) = true := by decide +kernel
  obtain ⟨⟨result, err⟩, returned, noError⟩ := Outcome.exists_of_passes quiet
  obtain rfl : err = none := by simpa using noError
  rw [returned] at run
  have stale : (((reconcileClaim (provisionerAt (.ok "c2VjcmV0") 2)
      heldClaim.key).execute serve [] store).2.2.find? .resourceClaim heldClaim.key).any
        (fun claim => claim.status.phase = .bound &&
          claim.status.observedGeneration ≠ claim.metadata.generation) = true := by
    decide +kernel
  obtain ⟨after, foundAfter, checkedAfter⟩ := Option.any_eq_true _ _ |>.mp stale
  simp only [Bool.and_eq_true, decide_eq_true_eq] at checkedAfter
  exact checkedAfter.2 (takes _ _ _ _ _ run after foundAfter checkedAfter.1).generation

end ScoreOrchestrator.Provisioner
