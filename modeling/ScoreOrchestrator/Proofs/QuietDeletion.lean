/-
Module: Proofs.QuietDeletion
Purpose: What a deletion that succeeds has done to the claims of its Workload, and that
  doing it again changes nothing, in whatever order they are listed.
-/
import ScoreOrchestrator.Proofs.Deprovisioning
import ScoreOrchestrator.Proofs.QuietPipeline

namespace ScoreOrchestrator.Controller

open Foundation
open Provisioner (deleted_of_delete)

variable {claim left : ResourceClaim} {claims : List ResourceClaim}
  {outcome : Outcome (Except GoError Unit)} {current : Workload}

/-- Deletion has done with a claim what its policy asks for. -/
def Processed (workload : Workload) (claim : ResourceClaim) : Prop :=
  match getDeprovisionPolicy claim with
  | .delete | .other _ => claim.isBeingDeleted = true
  | .retain | .orphan => ∀ ownerRef ∈ claim.metadata.ownerReferences,
      isWorkloadReference workload ownerRef = false

/-! ### Doing it again -/

section

variable {admits : ApiEvent → Prop} {state : Store} {workload : Workload}

theorem deleteResourceClaim_still (deleting : claim.isBeingDeleted = true) :
    Still admits state (· = .ok ()) (deleteResourceClaim claim) := by
  unfold deleteResourceClaim
  rw [if_pos deleting]
  exact .done rfl

theorem removeOwnerReference_still (found : state.find? .resourceClaim claim.key = some claim)
    (detached : ∀ ownerRef ∈ claim.metadata.ownerReferences,
      isWorkloadReference workload ownerRef = false) :
    Still admits state (· = .ok ()) (removeOwnerReference workload claim) := by
  have kept : (claim.metadata.ownerReferences.filter fun ownerRef =>
      !isWorkloadReference workload ownerRef) = claim.metadata.ownerReferences := by
    rw [List.filter_eq_self]
    intro ownerRef member
    rw [detached ownerRef member]
    rfl
  unfold removeOwnerReference
  rw [kept]
  exact Still.call rfl (serve_update_self found) (.done rfl)

/-- A claim that has been processed is left alone. -/
theorem processDeprovisionPolicy_still (found : state.find? .resourceClaim claim.key = some claim)
    (processed : Processed workload claim) :
    Still admits state (· = .ok ()) (processDeprovisionPolicy workload claim) := by
  unfold Processed at processed
  unfold processDeprovisionPolicy
  cases policy : getDeprovisionPolicy claim with
  | delete | other =>
    rw [policy] at processed
    exact deleteResourceClaim_still processed
  | retain | orphan =>
    rw [policy] at processed
    exact removeOwnerReference_still found processed

theorem processClaims_still
    (each : ∀ claim ∈ claims, state.find? .resourceClaim claim.key = some claim ∧
      Processed workload claim) :
    Still admits state (· = .ok ()) (processClaims workload claims) := by
  induction claims with
  | nil => exact .done rfl
  | cons claim rest ih =>
    obtain ⟨found, processed⟩ := each claim (.head _)
    apply Still.bind
    refine (processDeprovisionPolicy_still found processed).mono ?_
    rintro _ rfl
    exact ih fun claim member => each claim (.tail _ member)

end

/-! ### Doing it once -/

section

variable {workload : Workload} {before after : Store}
  {events : List ApiEvent}

/-- Other claims stay as they are. -/
theorem processDeprovisionPolicy_frame {key : NamespacedName} (different : claim.key ≠ key)
    (run : (processDeprovisionPolicy workload claim).Runs apiServer before events outcome after) :
    after.find? .resourceClaim key = before.find? .resourceClaim key := by
  refine find?_of_makes_target_ne (processDeprovisionPolicy_makes ?_ ?_) run
  · intro sent named aimed
    exact different (named.symm.trans (Prod.mk.inj (Option.some.inj aimed)).2)
  · intro aimed
    exact different (Prod.mk.inj (Option.some.inj aimed)).2

theorem processClaims_frame {key : NamespacedName} (outside : ∀ claim ∈ claims, claim.key ≠ key)
    (run : (processClaims workload claims).Runs apiServer before events outcome after) :
    after.find? .resourceClaim key = before.find? .resourceClaim key := by
  refine find?_of_makes_target_ne (processClaims_makes fun claim member =>
    processDeprovisionPolicy_makes ?_ ?_) run
  · intro sent named aimed
    exact outside claim member (named.symm.trans (Prod.mk.inj (Option.some.inj aimed)).2)
  · intro aimed
    exact outside claim member (Prod.mk.inj (Option.some.inj aimed)).2

section

variable (found : before.find? .resourceClaim claim.key = some claim)
include found

/-- A claim that was deleted waits for its finalizers at most, under its old policy. -/
theorem deleteResourceClaim_processed
    (run : (deleteResourceClaim claim).Runs apiServer before events (.returned (.ok ())) after)
    (stays : after.find? .resourceClaim claim.key = some left) :
    left.isBeingDeleted = true ∧ left.spec = claim.spec := by
  unfold deleteResourceClaim at run
  split at run
  next deleting =>
    cases run
    rw [found] at stays
    cases stays
    exact ⟨deleting, rfl⟩
  · obtain ⟨reply, _, _, rfl, served, rest⟩ := run.of_call
    cases rest
    refine ⟨deleted_of_delete served left stays, ?_⟩
    rcases (apiServer_step served).of_find? stays with same | ⟨_, ⟨stored, foundStored, rfl⟩, rfl⟩
    · cases found.symm.trans same
      rfl
    · cases found.symm.trans foundStored
      exact claim.spec_markedForDeletion _

/-- A claim that was detached has no reference to the Workload. -/
theorem removeOwnerReference_processed
    (run : (removeOwnerReference workload claim).Runs apiServer before events
      (.returned (.ok ())) after) (stays : after.find? .resourceClaim claim.key = some left) :
    (∀ ownerRef ∈ left.metadata.ownerReferences,
      isWorkloadReference workload ownerRef = false) ∧ left.spec = claim.spec := by
  obtain ⟨reply, _, _, rfl, served, rest⟩ := run.of_call
  cases reply with
  | error fault => cases rest
  | ok updated =>
    cases rest
    obtain ⟨version, rfl⟩ := apiServer_update_finds served found stays
    refine ⟨fun ownerRef member => ?_, rfl⟩
    simpa using (List.mem_filter.mp member).2

theorem processDeprovisionPolicy_processed
    (run : (processDeprovisionPolicy workload claim).Runs apiServer before events
      (.returned (.ok ())) after) (stays : after.find? .resourceClaim claim.key = some left) :
    Processed workload left := by
  have policies : left.spec = claim.spec →
      getDeprovisionPolicy left = getDeprovisionPolicy claim := by
    intro same
    unfold getDeprovisionPolicy
    rw [same]
  unfold processDeprovisionPolicy at run
  unfold Processed
  cases policy : getDeprovisionPolicy claim with
  | delete | other =>
    rw [policy] at run
    obtain ⟨deleting, same⟩ := deleteResourceClaim_processed found run stays
    rw [policies same, policy]
    exact deleting
  | retain | orphan =>
    rw [policy] at run
    obtain ⟨detached, same⟩ := removeOwnerReference_processed found run stays
    rw [policies same, policy]
    exact detached

end

/-- The loop, run to its end without an error, processes every claim. -/
theorem processClaims_processed (distinct : (claims.map Resource.key).Nodup)
    (each : ∀ claim ∈ claims, before.find? .resourceClaim claim.key = some claim)
    (run : (processClaims workload claims).Runs apiServer before events
      (.returned (.ok ())) after) :
    ∀ claim ∈ claims, ∀ left, after.find? .resourceClaim claim.key = some left →
      Processed workload left := by
  induction claims generalizing before events with
  | nil =>
    intro claim member
    cases member
  | cons first rest ih =>
    obtain ⟨fresh, distinctRest⟩ := List.nodup_cons.mp distinct
    have apart : ∀ claim ∈ rest, claim.key ≠ first.key := by
      intro claim member same
      apply fresh
      rw [← same]
      exact List.mem_map_of_mem member
    obtain ⟨processed, early, late, middle, _, head, tail⟩ := run.exists_of_bind
    cases processed with
    | error fault => cases tail
    | ok _ =>
      intro claim member left stays
      rcases List.mem_cons.mp member with rfl | later
      · -- the rest of the loop works on other claims
        rw [processClaims_frame apart tail] at stays
        exact processDeprovisionPolicy_processed (each claim (.head _)) head stays
      · refine ih distinctRest ?_ tail claim later left stays
        intro other member
        rw [processDeprovisionPolicy_frame (apart other member).symm head]
        exact each other (.tail _ member)

end

/-! ### The phase -/

/-- The claims that are indexed for a Workload. -/
def indexedClaims (workload : Workload) (store : Store) : List ResourceClaim :=
  (store.table .resourceClaim).rows.filter
    ((ListSelector.matchingFields "resourceclaim.workloadRef" (indexKey workload)).selects
      .resourceClaim)

theorem find?_of_mem_indexedClaims {workload : Workload} {store : Store}
    (member : claim ∈ indexedClaims workload store) :
    store.find? .resourceClaim claim.key = some claim :=
  Table.find?_of_mem (List.mem_filter.mp member).1

/-- A state in which deletion has nothing to do but to wait. -/
structure Waiting (workload : Workload) (store : Store) : Prop where
  processed : ∀ claim ∈ indexedClaims workload store, Processed workload claim
  waits : claimsToWaitFor (indexedClaims workload store) > 0

section

variable {settings : Settings} {workload : Workload} {before after : Store}
  {events : List ApiEvent}

/-- Listing claims reads some order of those that are indexed. -/
theorem getClaims_indexed {got : Except GoError (List ResourceClaim)}
    (run : (getClaims workload).Runs shufflingServer before events (.returned got) after) :
    ∃ claims, got = .ok claims ∧ claims.Perm (indexedClaims workload before) ∧
      after = before ∧
      ∃ event ∈ events, event.request.listed .resourceClaim event.reply = some claims := by
  obtain ⟨reply, _, _, rfl, served, rest⟩ := run.of_call
  obtain ⟨rfl, claims, rfl, permuted⟩ := shufflingServer_list served
  cases rest
  exact ⟨claims, rfl, permuted, rfl, _, .head _, rfl⟩

/-- Processing lists nothing. -/
theorem runs_processClaims
    (run : (processClaims workload claims).Runs shufflingServer before events outcome after) :
    (processClaims workload claims).Runs apiServer before events outcome after :=
  runs_apiServer_of_healthyServer (runs_healthyServer_of_shufflingServer
    (processClaims_makes fun _ _ => processDeprovisionPolicy_makes (fun _ _ => rfl) rfl) run)

/-- Processing claims leaves every Workload alone. -/
theorem processClaims_workloads
    (run : (processClaims workload claims).Runs shufflingServer before events outcome after) :
    after.table .workload = before.table .workload :=
  table_of_makes_leaves
    (processClaims_makes fun _ _ => processDeprovisionPolicy_makes
      (fun _ _ => .inr nofun) (.inr nofun)) (runs_processClaims run)

/-- Processing what is indexed leaves it processed. -/
theorem processClaims_indexed (permuted : claims.Perm (indexedClaims workload before))
    (run : (processClaims workload claims).Runs shufflingServer before events
      (.returned (.ok ())) after) :
    ∀ claim ∈ indexedClaims workload after, Processed workload claim := by
  have direct := runs_processClaims run
  have each : ∀ claim ∈ claims, before.find? .resourceClaim claim.key = some claim :=
    fun claim member => find?_of_mem_indexedClaims (permuted.mem_iff.mp member)
  have distinct : (claims.map Resource.key).Nodup := by
    refine (permuted.map _).nodup_iff.mpr ?_
    exact (before.table .resourceClaim).nodup.sublist (List.filter_sublist.map _)
  intro claim member
  have found := find?_of_mem_indexedClaims member
  by_cases listed : ∃ old ∈ claims, old.key = claim.key
  · obtain ⟨old, inList, named⟩ := listed
    exact processClaims_processed distinct each direct old inList claim (named ▸ found)
  · -- a claim that was not listed is as it was, and was not indexed
    have same := processClaims_frame (fun old inList named => listed ⟨old, inList, named⟩)
      direct
    rw [found] at same
    have wasIndexed : claim ∈ indexedClaims workload before :=
      List.mem_filter.mpr ⟨Store.mem_of_find? same.symm, (List.mem_filter.mp member).2⟩
    exact absurd ⟨claim, permuted.mem_iff.mpr wasIndexed, rfl⟩ listed

section

variable (stored : before.find? .workload workload.key = some workload)
include stored

/-- A Workload without the finalizer is being deleted as before. -/
theorem removeFinalizer_ends {removed : Workload}
    (run : (removeFinalizer workload).Runs shufflingServer before events
      (.returned (.ok removed)) after) (found : after.find? .workload workload.key = some current) :
    current.isBeingDeleted = workload.isBeingDeleted ∧ hasFinalizer current = false := by
  unfold removeFinalizer at run
  split at run
  · obtain ⟨reply, _, _, rfl, served, rest⟩ := run.of_call
    cases rest
    have direct := apiServer_of_healthyServer (healthyServer_of_shufflingServer rfl served)
    obtain ⟨version, rfl⟩ := apiServer_update_finds direct stored found
    refine ⟨rfl, ?_⟩
    have dropped : (workload.metadata.finalizers.filter
        (· ≠ workloadFinalizer)).contains workloadFinalizer = false := by simp
    exact dropped
  next bare =>
    cases run
    rw [stored] at found
    cases found
    exact ⟨rfl, Bool.eq_false_iff.mpr bare⟩

/-- The second half of a deletion without an error waits, or lets the Workload go. -/
theorem finishDeletion_ends {result : PhaseResult}
    (processed : ∀ claim ∈ indexedClaims workload before, Processed workload claim)
    (run : (finishDeletion settings workload).Runs shufflingServer before events
      (.returned result) after) (noError : result.error = none)
    (found : after.find? .workload workload.key = some current) :
    current.isBeingDeleted = workload.isBeingDeleted ∧
      (hasFinalizer current = false ∨ current = workload ∧ Waiting workload after) := by
  obtain ⟨got, early, late, middle, _, head, tail⟩ := run.exists_of_bind
  obtain ⟨remainingClaims, rfl, permuted, rfl, _⟩ := getClaims_indexed head
  dsimp only at tail
  split at tail
  next waits =>
    cases tail
    rw [stored] at found
    cases found
    have counted := permuted.countP_eq fun claim =>
      decide (getDeprovisionPolicy claim = .delete)
    refine ⟨rfl, .inr ⟨rfl, processed, ?_⟩⟩
    unfold claimsToWaitFor at waits ⊢
    rw [← counted]
    exact waits
  · obtain ⟨removed, _, _, last, _, second, rest⟩ := tail.exists_of_bind
    cases removed with
    | error fault =>
      cases rest
      cases noError
    | ok _ =>
      cases rest
      obtain ⟨deleting, bare⟩ := removeFinalizer_ends stored second found
      exact ⟨deleting, .inl bare⟩

/-- A deletion without an error waits, or lets the Workload go. -/
theorem executeDeletionPhase_ends {result : PhaseResult}
    (run : (executeDeletionPhase settings workload).Runs shufflingServer before events
      (.returned result) after) (noError : result.error = none)
    (found : after.find? .workload workload.key = some current) :
    current.isBeingDeleted = workload.isBeingDeleted ∧
      (hasFinalizer current = false ∨ current = workload ∧ Waiting workload after) := by
  unfold executeDeletionPhase at run
  split at run
  · obtain ⟨got, early, late, middle, _, head, tail⟩ := run.exists_of_bind
    obtain ⟨claims, rfl, permuted, rfl, _⟩ := getClaims_indexed head
    obtain ⟨processing, _, _, last, _, second, rest⟩ := tail.exists_of_bind
    cases processing with
    | error fault =>
      cases rest
      cases noError
    | ok _ =>
      have storedToo : last.find? .workload workload.key = some workload := by
        exact (Store.find?_of_table (processClaims_workloads second)).trans stored
      exact finishDeletion_ends storedToo (processClaims_indexed permuted second) rest
        noError found
  next bare =>
    cases run
    rw [stored] at found
    cases found
    exact ⟨rfl, .inl (Bool.eq_false_iff.mpr bare)⟩

end

end

/-! ### The next deletion -/

section

variable {admits : ApiEvent → Prop} {state : Store} {settings : Settings}
  {workload : Workload}

theorem getClaims_still_indexed :
    Still admits state
      (fun got => ∃ claims, got = .ok claims ∧ claims.Perm (indexedClaims workload state))
      (getClaims workload) :=
  Still.list fun claims permuted _ => .done ⟨claims, rfl, permuted⟩

/-- Where there is something to wait for, the second half of a deletion waits. -/
theorem finishDeletion_still (waits : claimsToWaitFor (indexedClaims workload state) > 0) :
    Still admits state (fun _ => True) (finishDeletion settings workload) := by
  apply Still.bind
  refine getClaims_still_indexed.mono ?_
  rintro _ ⟨remainingClaims, rfl, permuted⟩
  have counted : claimsToWaitFor remainingClaims > 0 := by
    unfold claimsToWaitFor at waits ⊢
    rw [permuted.countP_eq]
    exact waits
  dsimp only
  rw [if_pos counted]
  exact .done trivial

theorem executeDeletionPhase_still
    (settled : hasFinalizer workload = false ∨ Waiting workload state) :
    Still admits state (fun _ => True) (executeDeletionPhase settings workload) := by
  unfold executeDeletionPhase
  split
  next carries =>
    have waiting : Waiting workload state := settled.resolve_left (by rw [carries]; exact nofun)
    apply Still.bind
    refine getClaims_still_indexed.mono ?_
    rintro _ ⟨claims, rfl, permuted⟩
    apply Still.bind
    have each : ∀ claim ∈ claims, state.find? .resourceClaim claim.key = some claim ∧
        Processed workload claim := by
      intro claim member
      have indexed := permuted.mem_iff.mp member
      exact ⟨find?_of_mem_indexedClaims indexed, waiting.processed claim indexed⟩
    refine (processClaims_still each).mono ?_
    rintro _ rfl
    exact finishDeletion_still waiting.waits
  · exact .done trivial

end

end ScoreOrchestrator.Controller
