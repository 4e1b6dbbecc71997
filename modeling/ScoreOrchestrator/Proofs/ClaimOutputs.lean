/-
Module: Proofs.ClaimOutputs
Purpose: A stored ResourceClaim is bound exactly if it carries outputs, and these
  pass validation, over every interleaving of provisioner runs.
-/
import ScoreOrchestrator.Api.StatusInvariant
import ScoreOrchestrator.Proofs.ProvisionedObjects
import ScoreOrchestrator.Provisioner.Controller

namespace ScoreOrchestrator.Provisioner

open Foundation Program

/-!
Phase, outputs and the flag beside them are written together or not at all: every
handler returns the claim it was given, unchanged or through one of the setters.
A handler that returns it unchanged writes back the status that the run has read,
so the rule must already hold there; this is why the proof is about the whole
cluster and not about one run.
-/

/-- What the orchestrator relies on when it reads a claim's status. -/
structure OutputsRule (status : ResourceClaimStatus) : Prop where
  bound_iff_available : status.phase = .bound ↔ status.outputsAvailable = true
  available_iff_outputs : status.outputsAvailable = true ↔ status.outputs ≠ none
  valid : status.outputs ≠ none → validateOutputs status.outputs = .ok ()

/-! ### The setters -/

theorem outputsRule_default : OutputsRule default where
  bound_iff_available := by decide
  available_iff_outputs := by decide
  valid some := absurd rfl some

theorem outputsRule_setUnbound {phase : ResourceClaimPhase} (unbound : phase ≠ .bound) (now : Time)
    (claim : ResourceClaim) (reason message : String) :
    OutputsRule (setUnbound phase now claim reason message).status where
  bound_iff_available := by simp [setUnbound, setPhase, unbound]
  available_iff_outputs := by simp [setUnbound]
  valid some := absurd rfl some

theorem outputsRule_setBound {outputs : Option ResourceClaimOutputs}
    (valid : validateOutputs outputs = .ok ()) (now : Time) (claim : ResourceClaim) :
    OutputsRule (setBound now claim outputs).status where
  bound_iff_available := by simp [setBound, setPhase]
  available_iff_outputs := by
    cases outputs with
    | none => cases valid
    | some => simp [setBound]
  valid _ := valid

/-! ### The phase handlers -/

/-- What a handler can make of a claim: leave it, unbind it, or bind it to valid
outputs that its strategy returned. -/
inductive Moved (settings : ProvisionerSettings)
    (published : Option ResourceClaimOutputs → Prop) (claim : ResourceClaim) :
    ResourceClaim → Prop where
  | unchanged : Moved settings published claim claim
  | unbound (phase : ResourceClaimPhase) (different : phase ≠ .bound)
      (reason message : String) :
      Moved settings published claim (setUnbound phase settings.now claim reason message)
  | bound (outputs : Option ResourceClaimOutputs)
      (valid : validateOutputs outputs = .ok ()) (returned : published outputs) :
      Moved settings published claim (setBound settings.now claim outputs)

section

variable {settings : ProvisionerSettings} {published : Option ResourceClaimOutputs → Prop}
  {claim : ResourceClaim}

theorem Moved.failed (reason message : String) :
    Moved settings published claim (setFailed settings.now claim reason message) :=
  .unbound .failed (by decide) reason message

/-- Every outcome that a strategy returns satisfies the property. -/
def ReturnsOnly (published : Option ResourceClaimOutputs → Prop) (strategy : Strategy)
    (claim : ResourceClaim) : Prop :=
  (strategy.provision claim).Yields fun provisioned =>
    ∀ outputs, provisioned = .ok outputs → published outputs

variable {strategy : Strategy}

theorem provisionAndBind_moves (returns : ReturnsOnly published strategy claim) (failure : String) :
    (provisionAndBind settings strategy claim failure).Yields fun handled =>
      Moved settings published claim handled.1 := by
  apply Yields.bind
  refine returns.mono fun provisioned only => ?_
  cases provisioned with
  | error fault => exact .failed _ _
  | ok outputs =>
    dsimp only
    split
    · exact .failed _ _
    · rename_i valid
      exact .bound outputs valid (only outputs rfl)

theorem handleClaimingPhase_moves (returns : ReturnsOnly published strategy claim) :
    (handleClaimingPhase settings claim strategy).Yields fun handled =>
      Moved settings published claim handled.1 := by
  refine Yields.bind_of_forall fun (status, err) => ?_
  cases err with
  | some fault => exact .failed _ _
  | none =>
    dsimp only
    split
    · exact provisionAndBind_moves returns _
    · split
      · exact .failed _ _
      · exact .unchanged

theorem handleBoundPhase_moves :
    (handleBoundPhase settings claim strategy).Yields fun handled =>
      Moved settings published claim handled.1 := by
  refine Yields.bind_of_forall fun (status, err) => ?_
  cases err with
  | some fault => exact .unchanged
  | none =>
    dsimp only
    split
    · exact .failed _ _
    · exact .unchanged

theorem handleFailedPhase_moves :
    (handleFailedPhase settings claim strategy).Yields fun handled =>
      Moved settings published claim handled.1 := by
  refine Yields.bind_of_forall fun (status, err) => ?_
  cases err with
  | some fault => exact .unchanged
  | none =>
    dsimp only
    split
    · exact .unbound .claiming (by decide) _ _
    · exact .unchanged

/-- What one reconcile can make of a claim, whatever its phase. -/
theorem handleProvisioning_moves (returns : ∀ strategy,
      settings.strategySelector.getStrategy claim.spec.type = .ok strategy →
        ReturnsOnly published strategy claim) :
    (handleProvisioning settings claim).Yields fun handled =>
      Moved settings published claim handled.1 := by
  unfold handleProvisioning
  split
  · exact .failed _ _
  · rename_i strategy selected
    split
    · exact provisionAndBind_moves (returns strategy selected) _
    · exact provisionAndBind_moves (returns strategy selected) _
    · exact handleClaimingPhase_moves (returns strategy selected)
    · exact handleBoundPhase_moves
    · exact handleFailedPhase_moves
    · exact .unbound .pending (by decide) _ _

end

theorem Moved.outputsRule {settings : ProvisionerSettings}
    {published : Option ResourceClaimOutputs → Prop} {claim next : ResourceClaim}
    (moved : Moved settings published claim next) (obeys : OutputsRule claim.status) :
    OutputsRule next.status := by
  cases moved with
  | unchanged => exact obeys
  | unbound phase different => exact outputsRule_setUnbound different _ _ _ _
  | bound outputs valid => exact outputsRule_setBound valid _ _

/-- From a claim that obeys the rule every phase leads to one that does, whatever
its strategy returns. -/
theorem handleProvisioning_yields (settings : ProvisionerSettings) {claim : ResourceClaim}
    (obeys : OutputsRule claim.status) :
    (handleProvisioning settings claim).Yields fun handled =>
      OutputsRule handled.1.status := by
  have returns : ∀ strategy,
      settings.strategySelector.getStrategy claim.spec.type = .ok strategy →
        ReturnsOnly (fun _ => True) strategy claim := fun strategy _ =>
    (Program.yields_true _).mono fun _ _ _ _ => trivial
  exact (handleProvisioning_moves returns).mono fun _ moved => moved.outputsRule obeys

/-! ### What a run writes -/

/-- A strategy that writes no claim; beyond that it may call and return what it
likes. -/
structure LeavesClaims (strategy : Strategy) : Prop where
  provision : ∀ claim,
    (strategy.provision claim).Makes fun _ request => request.Leaves .resourceClaim
  deprovision : ∀ claim,
    (strategy.deprovision claim).Makes fun _ request => request.Leaves .resourceClaim
  getStatus : ∀ claim,
    (strategy.getStatus claim).Makes fun _ request => request.Leaves .resourceClaim

/-- None of the registered strategies writes claims. -/
def Selector.LeavesClaims (selector : Selector) : Prop :=
  ∀ resourceType strategy, selector.getStrategy resourceType = .ok strategy →
    Provisioner.LeavesClaims strategy

theorem About.leaves {objects : List (Kind × NamespacedName)} {answer : Type}
    {request : Call answer} (about : About objects request)
    (others : ∀ target ∈ objects, target.1 ≠ .resourceClaim) : request.Leaves .resourceClaim := by
  obtain ⟨target, member, same⟩ := about
  refine .inr fun equal => others target member ?_
  rw [equal]
  exact (Call.kind_of_target same).symm

theorem StaysWithin.leavesClaims {strategy : Strategy}
    {objects : ResourceClaim → List (Kind × NamespacedName)}
    (within : ∀ claim, StaysWithin strategy claim (objects claim))
    (others : ∀ claim, ∀ target ∈ objects claim, target.1 ≠ .resourceClaim) :
    LeavesClaims strategy where
  provision claim := (within claim).provision.mono fun _ _ about =>
    about.leaves (others claim)
  deprovision claim := (within claim).deprovision.mono fun _ _ about =>
    about.leaves (others claim)
  getStatus claim := (within claim).getStatus.mono fun _ _ about =>
    about.leaves (others claim)

/-- The strategies of the repository create and delete the objects of a claim and
leave the claim itself to the controller. -/
theorem registerStrategies_leavesClaims (random : RandomText) :
    (registerStrategies random).LeavesClaims := by
  intro resourceType strategy selected
  have known : strategyOf random (claimNamed "" resourceType) = .ok strategy := selected
  rcases strategyOf_cases known with ⟨_, rfl⟩ | ⟨_, rfl⟩ | ⟨_, rfl⟩
  · apply StaysWithin.leavesClaims (PostgresStrategy.staysWithin · random)
    simp [PostgresStrategy.objects]
  · apply StaysWithin.leavesClaims (RedisStrategy.staysWithin · random)
    simp [RedisStrategy.objects]
  · apply StaysWithin.leavesClaims (SecretStrategy.staysWithin · random)
    simp [SecretStrategy.objects]

section

variable {allowed : CallSet Call} {settings : ProvisionerSettings}
  {claim : ResourceClaim}

theorem provisionAndBind_makes {strategy : Strategy}
    (provision : (strategy.provision claim).Makes allowed) (failure : String) :
    (provisionAndBind settings strategy claim failure).Makes allowed := by
  apply provision.bind
  intro provisioned
  cases provisioned with
  | error fault => trivial
  | ok outputs =>
    dsimp only
    split <;> trivial

/-- While a claim is handled, only its strategy makes calls. -/
theorem handleProvisioning_makes (makes : ∀ strategy,
      settings.strategySelector.getStrategy claim.spec.type = .ok strategy →
        (strategy.provision claim).Makes allowed ∧
          (strategy.getStatus claim).Makes allowed) :
    (handleProvisioning settings claim).Makes allowed := by
  unfold handleProvisioning
  split
  · trivial
  · rename_i strategy selected
    obtain ⟨provision, getStatus⟩ := makes strategy selected
    have binds (failure : String) :
        (provisionAndBind settings strategy claim failure).Makes allowed :=
      provisionAndBind_makes provision failure
    split
    · exact binds _
    · exact binds _
    · apply getStatus.bind
      intro (status, err)
      dsimp only
      split
      · trivial
      · split
        · exact binds _
        · split <;> trivial
    · apply getStatus.bind
      intro (status, err)
      dsimp only
      split
      · trivial
      · split <;> trivial
    · apply getStatus.bind
      intro (status, err)
      dsimp only
      split
      · trivial
      · split <;> trivial
    · trivial

end

section

variable {settings : ProvisionerSettings}
  (leaves : settings.strategySelector.LeavesClaims)
include leaves

theorem handleProvisioning_leaves (claim : ResourceClaim) :
    (handleProvisioning settings claim).Makes fun _ request => request.Leaves .resourceClaim := by
  apply handleProvisioning_makes
  intro strategy selected
  have strategyLeaves := leaves _ strategy selected
  exact ⟨strategyLeaves.provision claim, strategyLeaves.getStatus claim⟩

/-- A claim that is being deleted keeps its status. -/
theorem handleDeletion_keepsStatuses (claim : ResourceClaim) :
    (handleDeletion settings claim).Makes
      fun _ request => request.KeepsStatuses .resourceClaim OutputsRule := by
  have releases : (releaseClaim claim).Makes
      fun _ request => request.KeepsStatuses .resourceClaim OutputsRule := by
    refine ⟨trivial, fun updated => ?_⟩
    cases updated <;> trivial
  unfold handleDeletion
  split
  · split
    · exact releases
    · rename_i strategy selected
      have strategyLeaves := leaves _ strategy selected
      apply ((strategyLeaves.deprovision claim).mono
        fun _ _ leaves => leaves.keepsStatuses).bind
      intro deprovisioned
      cases deprovisioned with
      | error fault => trivial
      | ok => exact releases
  · trivial

omit leaves in
theorem initializeClaim_keepsStatuses (claim : ResourceClaim) :
    (initializeClaim settings claim).Makes
      fun _ request => request.KeepsStatuses .resourceClaim OutputsRule := by
  refine ⟨trivial, fun updated => ?_⟩
  cases updated with
  | error fault => trivial
  | ok claim =>
    refine ⟨fun _ => ?_, fun statusUpdated => ?_⟩
    · exact outputsRule_setUnbound (by decide) _ _ _ _
    · cases statusUpdated <;> trivial

/-- The status written at the end of a run obeys the rule, because the one read at
its start did. -/
theorem provisionClaim_safe {admits : List ApiEvent → ApiEvent → Prop} {claim : ResourceClaim}
    (obeys : OutputsRule claim.status) (history : List ApiEvent) (state : Store) :
    Safe (statusContract .resourceClaim OutputsRule admits) (fun _ _ _ => True)
      (provisionClaim settings claim) history state := by
  have makes : (handleProvisioning settings claim).Makes
      fun _ request => request.KeepsStatuses .resourceClaim OutputsRule :=
    (handleProvisioning_leaves leaves claim).mono
      fun _ _ leaves => leaves.keepsStatuses
  apply Safe.bind
  refine ((safe_of_keepsStatuses outputsRule_default makes history state).and_yields
    (handleProvisioning_yields settings obeys)).mono ?_
  intro handled history state both before _ reply after served _
  have written : (Call.updateStatus .resourceClaim handled.1).KeepsStatuses
      .resourceClaim OutputsRule := fun _ => both.2
  refine ⟨apiServer_allStatuses outputsRule_default written served, ?_⟩
  cases reply <;> exact fun _ _ => trivial

theorem reconcileClaim_safe {admits : List ApiEvent → ApiEvent → Prop} (key : NamespacedName)
    {state : Store} (all : state.AllStatuses .resourceClaim OutputsRule) :
    Safe (statusContract .resourceClaim OutputsRule admits) (fun _ _ _ => True)
      (reconcileClaim settings key) [] state := by
  intro before moved reply after served _
  have reads : (Call.get .resourceClaim key).KeepsStatuses .resourceClaim OutputsRule := trivial
  have kept := apiServer_allStatuses outputsRule_default reads served
  refine ⟨kept, ?_⟩
  simp only [done_bind]
  cases reply with
  | error fault =>
    dsimp only
    split <;> exact fun _ _ => trivial
  | ok claim =>
    have found := (apiServer_get_ok served).1
    have obeys : OutputsRule claim.status := moved all claim (Store.mem_of_find? found)
    dsimp only
    split
    · split
      · exact (safe_of_keepsStatuses outputsRule_default
          (handleDeletion_keepsStatuses leaves claim) _ _).mono fun _ _ _ _ => trivial
      · split
        · exact provisionClaim_safe leaves obeys _ _
        · exact (safe_of_keepsStatuses outputsRule_default
            (initializeClaim_keepsStatuses claim) _ _).mono fun _ _ _ _ => trivial
    · exact fun _ _ => trivial

end

/-! ### Every interleaving -/

/-- Any number of provisioner workers, whose strategies write no claims and may
differ from run to run.  Everybody else may change anything but a claim's status:
edit the spec, raise the generation, create and delete claims. -/
def provisionerRules : Rules Nat Call GoError Store where
  service _ := apiServer
  starts _ program := ∃ settings key, settings.strategySelector.LeavesClaims ∧
    program = (reconcileClaim settings key).discard
  admits _ _ _ := True
  environment := Store.LeavesStatuses .resourceClaim

theorem outputsVerified : StatusVerified provisionerRules .resourceClaim OutputsRule where
  fresh := outputsRule_default
  service _ := rfl
  environment := id
  safe {worker program state} starts all := by
    obtain ⟨settings, key, leaves, rfl⟩ := starts
    exact (reconcileClaim_safe leaves key all).discard

/-- Outputs rule: from empty statuses on, every stored claim is bound exactly if its
outputs are available, exactly if it has outputs, and these are valid. -/
theorem outputsRule_of_reachable {system : System Nat Call GoError Store}
    (reached : Reachable provisionerRules (Store.EmptyStatuses .resourceClaim) system) :
    ∀ claim ∈ (system.state.table .resourceClaim).rows, OutputsRule claim.status :=
  outputsVerified.allStatuses_of_reachable reached

/-! ### A run -/

/-- The repository's strategies at a fixed time and with fixed random bytes. -/
def quietProvisioner : ProvisionerSettings where
  strategySelector := registerStrategies (.ok "c2VjcmV0")
  now := 2

def claimedStore : Store := Store.empty.insert .resourceClaim (claimNamed "web-token" "secret")

/-- The cluster after one provisioner run. -/
@[irreducible] def afterProvisioner (store : Store) : Store :=
  ((reconcileClaim quietProvisioner
    ⟨"default", "web-token"⟩).discard.execute serve [] store).2.2

theorem reachable_afterProvisioner {store : Store}
    (reached : Reachable provisionerRules (Store.EmptyStatuses .resourceClaim)
      { state := store, thread := fun _ => none }) :
    Reachable provisionerRules (Store.EmptyStatuses .resourceClaim)
      { state := afterProvisioner store, thread := fun _ => none } := by
  unfold afterProvisioner
  refine reached.run 0 rfl ?_ (runs_execute serve _ [] store) ?_
  · exact ⟨quietProvisioner, _, registerStrategies_leavesClaims _, rfl⟩
  · exact .of_forall (fun _ _ => trivial) _ _

/-- A cluster whose only claim has no status yet. -/
theorem emptyStatuses_insert (claim : ResourceClaim) (fresh : claim.status = default) :
    (Store.empty.insert .resourceClaim claim).EmptyStatuses .resourceClaim := by
  intro stored member
  rcases Store.mem_commit.mp member with ⟨rfl, _⟩ | ⟨old, _⟩
  · exact fresh
  · cases old

/-- Two runs bind a claim: one adds the finalizer, the next provisions. -/
theorem outputsRule_of_reachable_bound :
    (∃ claim ∈ ((afterProvisioner (afterProvisioner claimedStore)).table
      .resourceClaim).rows, claim.status.phase = .bound) ∧
    ∀ claim ∈ ((afterProvisioner (afterProvisioner claimedStore)).table
      .resourceClaim).rows, OutputsRule claim.status := by
  have initial : claimedStore.EmptyStatuses .resourceClaim := emptyStatuses_insert _ rfl
  have reached := reachable_afterProvisioner
    (reachable_afterProvisioner (.initial initial))
  have obeyed := outputsRule_of_reachable reached
  exact ⟨by decide +kernel, obeyed⟩

end ScoreOrchestrator.Provisioner
