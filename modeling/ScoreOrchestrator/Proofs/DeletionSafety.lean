/-
Module: Proofs.DeletionSafety
Purpose: Claims are created only under the Workload's finalizer, and the finalizer
  goes only when nothing but detached claims to be kept is left, over every
  interleaving with provisioners and the user's delete request.
-/
import ScoreOrchestrator.Foundation.Concurrency
import ScoreOrchestrator.Proofs.Footprints
import ScoreOrchestrator.Provisioner.Controller

namespace ScoreOrchestrator.Controller

open Foundation Program

/-!
The deletion phase lists the claims, acts on each, lists again and decides.  It may
stop after any call and is entered again from the start.  The proof therefore
carries no memory from one pass to the next: a pass that reaches the last write has
by then acted on every claim that is left.
-/

variable {claim listed : ResourceClaim} {claims rest : List ResourceClaim} {key : NamespacedName}
  {store before after : Store} {workload : Workload}

/-! ### Vocabulary -/

/-- The claim belongs to the Workload with this key. -/
def References (key : NamespacedName) (claim : ResourceClaim) : Prop := claim.spec.workloadRef = key

/-- The policies under which a claim outlives its Workload. -/
def IsKept (claim : ResourceClaim) : Prop :=
  claim.spec.deprovisionPolicy = some .retain ∨
    claim.spec.deprovisionPolicy = some .orphan

/-- The claim has no owner reference to a Workload of this name. -/
def Detached (key : NamespacedName) (claim : ResourceClaim) : Prop :=
  ∀ ownerRef ∈ claim.metadata.ownerReferences,
    ¬ (ownerRef.kind = "Workload" ∧ ownerRef.name = key.name)

/-- The claim is found by the label selector of `GetClaims` too. -/
def Labelled (key : NamespacedName) (claim : ResourceClaim) : Prop :=
  claim.metadata.ns = key.ns ∧
    claim.metadata.labels.get? "score.dev/workload" = some key.name

/-- The stored Workload carries the orchestrator's finalizer. -/
def Carries (key : NamespacedName) (store : Store) : Prop :=
  ∃ workload, store.find? .workload key = some workload ∧ hasFinalizer workload

theorem carries_iff_hasFinalizer :
    Carries key store ↔ store.HasFinalizer .workload key workloadFinalizer := by
  simp [Carries, Store.HasFinalizer, hasFinalizer]

theorem Carries.of_table (same : after.table .workload = before.table .workload)
    (carries : Carries key before) : Carries key after := by
  rw [carries_iff_hasFinalizer] at carries ⊢
  exact carries.of_table same

/-- Every stored policy is Delete, Retain, Orphan or unset. -/
def PoliciesInSchema (store : Store) : Prop :=
  ∀ claim ∈ (store.table .resourceClaim).rows, ∀ text,
    claim.spec.deprovisionPolicy ≠ some (.other text)

/-! ### Everybody else -/

/-- A claim before and after a step of somebody else: finalizers, deletion mark and
status may differ. -/
structure SameClaim (old new : ResourceClaim) : Prop where
  key : old.key = new.key
  spec : old.spec = new.spec
  ownerReferences : old.metadata.ownerReferences = new.metadata.ownerReferences
  labels : old.metadata.labels = new.metadata.labels

/-- Claims go away or stay as they are; none appears. -/
def ClaimsSettle (before after : Store) : Prop :=
  ∀ claim ∈ (after.table .resourceClaim).rows,
    ∃ old ∈ (before.table .resourceClaim).rows, SameClaim old claim

/-- What provisioners and the user's delete request do: claims settle, and the
Workload is marked at most as long as it has the finalizer. -/
structure OthersMove (key : NamespacedName) (before after : Store) : Prop where
  claims : ClaimsSettle before after
  workload : Carries key before → Carries key after

theorem SameClaim.refl (claim : ResourceClaim) : SameClaim claim claim := ⟨rfl, rfl, rfl, rfl⟩

theorem SameClaim.references {old new : ResourceClaim} (same : SameClaim old new)
    (references : References key new) : References key old := by
  unfold References at references ⊢
  rw [same.spec]
  exact references

theorem SameClaim.labelled {old new : ResourceClaim} (same : SameClaim old new)
    (labelled : Labelled key old) : Labelled key new := by
  have spaces : old.metadata.ns = new.metadata.ns := congrArg NamespacedName.ns same.key
  unfold Labelled at labelled ⊢
  rw [← spaces, ← same.labels]
  exact labelled

theorem ClaimsSettle.of_table (same : after.table .resourceClaim = before.table .resourceClaim) :
    ClaimsSettle before after := by
  intro claim member
  rw [same] at member
  exact ⟨claim, member, .refl claim⟩

theorem ClaimsSettle.trans {first second third : Store} (one : ClaimsSettle first second)
    (two : ClaimsSettle second third) : ClaimsSettle first third := by
  intro claim member
  obtain ⟨middle, middleMember, same⟩ := two claim member
  obtain ⟨old, oldMember, before⟩ := one middle middleMember
  exact ⟨old, oldMember, before.key.trans same.key, before.spec.trans same.spec,
    before.ownerReferences.trans same.ownerReferences, before.labels.trans same.labels⟩

theorem OthersMove.refl (key : NamespacedName) (store : Store) : OthersMove key store store :=
  ⟨.of_table rfl, id⟩

theorem OthersMove.trans {first second third : Store} (one : OthersMove key first second)
    (two : OthersMove key second third) : OthersMove key first third :=
  ⟨one.claims.trans two.claims, two.workload ∘ one.workload⟩

/-- A write that leaves the Workloads alone. -/
theorem OthersMove.of_claims (claims : ClaimsSettle before after)
    (same : after.table .workload = before.table .workload) : OthersMove key before after := by
  exact ⟨claims, .of_table same⟩

/-- The user asks for the deletion of the Workload. -/
theorem othersMove_deleteRequest {reply : Except GoError Unit}
    (served : apiServer (.delete .workload key) before reply after) :
    OthersMove key before after := by
  refine ⟨.of_table (apiServer_table_of_leaves (by exact .inr nofun) served), ?_⟩
  intro carries
  rw [carries_iff_hasFinalizer] at carries ⊢
  exact carries.delete served

/-- A provisioner lets go of a claim that it has deprovisioned. -/
theorem othersMove_releaseClaim {reply : Except GoError ResourceClaim}
    (current : before.find? .resourceClaim claim.key = some claim)
    (served : apiServer (.update .resourceClaim (Provisioner.removeFinalizer claim))
      before reply after) : OthersMove key before after := by
  refine .of_claims ?_ (apiServer_table_of_leaves (by exact .inr nofun) served)
  intro object member
  rcases (apiServer_step served).of_mem member with old | ⟨_, ⟨stored, found, _, rfl⟩, rfl⟩
  · exact ⟨object, old, .refl object⟩
  · have same : stored = claim := by
      have keys : (Provisioner.removeFinalizer claim).key = claim.key := rfl
      rw [keys, current] at found
      cases found
      rfl
    subst same
    exact ⟨stored, Store.mem_of_find? current, rfl, rfl, rfl, rfl⟩

/-! ### The rules -/

/-- A list by the field index fails as if there were no index only where the label
selector, to which the code then turns, finds the same claims.  With the index
registered, as `SetupIndexers` does before anything runs, no call fails that
way. -/
def FallsBackSafely (key : NamespacedName) (event : ApiEvent) : Prop :=
  ∀ fault, event.reply = .error fault → claimIndexMissing fault = true →
    ∀ claim ∈ (event.before.table .resourceClaim).rows, References key claim →
      Labelled key claim

/-- One pipeline worker for one Workload; any of its calls may fail. -/
def deletionRules (key : NamespacedName) : Rules Unit Call GoError Store where
  service _ := apiServer
  starts _ program := ∃ settings, program = (reconcileWorkload settings key).discard
  admits _ _ event := FallsBackSafely key event
  environment := OthersMove key

/-- What each exchange of the pipeline must satisfy. -/
structure DeletionSafe (key : NamespacedName) (event : ApiEvent) : Prop where
  creates : event.request.creates .resourceClaim → Carries key event.before
  deletes : ∀ claimKey, event.request.deletes .resourceClaim = some claimKey →
    ∀ claim, event.before.find? .resourceClaim claimKey = some claim → ¬ IsKept claim
  releases : Carries key event.before → ¬ Carries key event.after →
    ∀ claim ∈ (event.before.table .resourceClaim).rows, References key claim →
      IsKept claim ∧ Detached key claim

/-- The terms of the pipeline worker. -/
def deletionContract (key : NamespacedName) : Contract Call GoError Store where
  service := apiServer
  rely := OthersMove key
  rely_refl := .refl key
  rely_trans := .trans
  admits _ event := FallsBackSafely key event
  guarantee _ event := DeletionSafe key event ∧
    (PoliciesInSchema event.before → PoliciesInSchema event.after)

theorem PoliciesInSchema.settle (schema : PoliciesInSchema before)
    (settled : ClaimsSettle before after) : PoliciesInSchema after := by
  intro claim member text
  obtain ⟨old, oldMember, same⟩ := settled claim member
  rw [← same.spec]
  exact schema old oldMember text

section

variable {key : NamespacedName} {answer : Type} {request : Call answer}
  {before after : Store} {reply : Except GoError answer}

/-- An exchange that creates no claim, deletes none and keeps the finalizer. -/
theorem DeletionSafe.of_carries (notCreates : request.creates .resourceClaim = false)
    (notDeletes : request.deletes .resourceClaim = none)
    (kept : Carries key before → Carries key after) :
    DeletionSafe key { request, reply, before, after } where
  creates creates := by
    rw [notCreates] at creates
    cases creates
  deletes claimKey deletes := by
    rw [notDeletes] at deletes
    cases deletes
  releases carries gone := absurd (kept carries) gone

theorem guarantee_of_isRead (reads : request.isRead)
    (served : apiServer request before reply after) :
    DeletionSafe key { request, reply, before, after } ∧
      (PoliciesInSchema before → PoliciesInSchema after) := by
  have same := apiServer_of_isRead reads served
  subst same
  refine ⟨.of_carries ?_ ?_ id, id⟩
  · cases request with
    | get | list => rfl
    | _ => cases reads
  · cases request with
    | get | list => rfl
    | _ => cases reads

end

/-! ### Listing -/

/-- What a pass knows of the claims after it has listed them: none is missing, and
those still stored are as they were listed. -/
structure Listing (key : NamespacedName) (claims : List ResourceClaim) (store : Store) : Prop where
  covers : ∀ claim ∈ (store.table .resourceClaim).rows, References key claim →
    ∃ listed ∈ claims, listed.key = claim.key ∧ listed.spec = claim.spec
  current : ∀ listed ∈ claims, ∀ claim ∈ (store.table .resourceClaim).rows,
    listed.key = claim.key → listed.spec = claim.spec

theorem Listing.settle (listing : Listing key claims before) (settled : ClaimsSettle before after) :
    Listing key claims after where
  covers claim member references := by
    obtain ⟨old, oldMember, same⟩ := settled claim member
    obtain ⟨listed, inList, keys, specs⟩ :=
      listing.covers old oldMember (same.references references)
    exact ⟨listed, inList, keys.trans same.key, specs.trans same.spec⟩
  current listed inList claim member keys := by
    obtain ⟨old, oldMember, same⟩ := settled claim member
    rw [← same.spec]
    exact listing.current listed inList old oldMember (keys.trans same.key.symm)

/-- A list of the current store, by whatever selector finds the Workload's
claims. -/
theorem listing_of_list {selector : ListSelector}
    (served : apiServer (.list .resourceClaim selector) before (.ok claims) after)
    (finds : ∀ claim ∈ (before.table .resourceClaim).rows, References key claim →
      selector.selects .resourceClaim claim = true) : Listing key claims after := by
  have same := apiServer_of_isRead rfl served
  subst same
  have carriedOut := serve_of_ok served
  cases carriedOut
  constructor
  · intro claim member references
    exact ⟨claim, List.mem_filter.mpr ⟨member, finds claim member references⟩, rfl, rfl⟩
  · intro listed inList claim member keys
    have stored := (List.mem_filter.mp inList).1
    rw [(after.table .resourceClaim).eq_of_key_eq stored member keys]

section

variable {key : NamespacedName} {workload : Workload} (named : workload.key = key)
include named

theorem selects_by_index (references : References key claim) :
    (ListSelector.matchingFields "resourceclaim.workloadRef"
      (indexKey workload)).selects .resourceClaim claim = true := by
  unfold References at references
  subst named
  simp [ListSelector.selects, indexValue, indexKey, references, Resource.key]

theorem selects_by_label (labelled : Labelled key claim) :
    (ListSelector.inNamespaceMatchingLabels workload.metadata.ns
      [("score.dev/workload", workload.metadata.name)]).selects .resourceClaim claim = true := by
  subst named
  simp [ListSelector.selects, labelled.1, labelled.2, Resource.key]

/-- `GetClaims` finds every claim of the Workload, also by the second list. -/
theorem getClaims_lists {history : List ApiEvent} {state : Store} (holds : Store → Prop)
    (stable : ∀ {before after}, OthersMove key before after → holds before → holds after)
    (starts : holds state) :
    Safe (deletionContract key)
      (fun listed _ later => holds later ∧
        ∀ claims, listed = .ok claims → Listing key claims later)
      (getClaims workload) history state := by
  intro before moved reply after served admitted
  refine ⟨guarantee_of_isRead rfl served, ?_⟩
  have same := apiServer_of_isRead rfl served
  simp only [done_bind]
  cases reply with
  | ok claims =>
    have listing : Listing key claims after :=
      listing_of_list served fun _ _ references => selects_by_index named references
    intro later further
    refine ⟨stable further (same ▸ stable moved starts), ?_⟩
    intro other equal
    cases equal
    exact listing.settle further.claims
  | error fault =>
    dsimp only
    split
    · rename_i missing
      have labelled := admitted fault rfl missing
      intro again further reply final served _
      refine ⟨guarantee_of_isRead rfl served, ?_⟩
      have unchanged := apiServer_of_isRead rfl served
      have kept : holds final := unchanged ▸ stable further (same ▸ stable moved starts)
      intro later onward
      refine ⟨stable onward kept, ?_⟩
      intro claims equal
      subst equal
      have listing : Listing key claims final := by
        refine listing_of_list served fun claim member references => ?_
        apply selects_by_label named
        -- the labels are those of the failed list
        obtain ⟨old, oldMember, unedited⟩ := further.claims claim member
        rw [same] at oldMember
        exact unedited.labelled
          (labelled old oldMember (unedited.references references))
      exact listing.settle onward.claims
    · intro later further
      refine ⟨stable further (same ▸ stable moved starts), ?_⟩
      intro claims equal
      cases equal

end

/-! ### Acting on the claims -/

/-- Where a pass stands: every claim of the Workload is still to come, detached, or
not to be kept. -/
structure Progress (key : NamespacedName) (rest : List ResourceClaim) (store : Store) : Prop where
  schema : PoliciesInSchema store
  pending : ∀ claim ∈ (store.table .resourceClaim).rows, References key claim →
    (∃ listed ∈ rest, listed.key = claim.key) ∨ Detached key claim ∨ ¬ IsKept claim
  current : ∀ listed ∈ rest, ∀ claim ∈ (store.table .resourceClaim).rows,
    listed.key = claim.key → listed.spec = claim.spec

theorem Progress.of_listing (schema : PoliciesInSchema store) (listing : Listing key claims store) :
    Progress key claims store where
  schema := schema
  pending claim member references := by
    obtain ⟨listed, inList, keys, _⟩ := listing.covers claim member references
    exact .inl ⟨listed, inList, keys⟩
  current := listing.current

theorem Progress.settle (progress : Progress key rest before)
    (settled : ClaimsSettle before after) : Progress key rest after where
  schema := progress.schema.settle settled
  pending claim member references := by
    obtain ⟨old, oldMember, same⟩ := settled claim member
    unfold Detached IsKept
    rw [← same.key, ← same.spec, ← same.ownerReferences]
    exact progress.pending old oldMember (same.references references)
  current listed inList claim member keys := by
    obtain ⟨old, oldMember, same⟩ := settled claim member
    rw [← same.spec]
    exact progress.current listed inList old oldMember (keys.trans same.key.symm)

/-- A claim that is not to be kept needs nothing more. -/
theorem Progress.skip (progress : Progress key (listed :: rest) store) (notKept : ¬ IsKept listed) :
    Progress key rest store where
  schema := progress.schema
  pending claim member references := by
    rcases progress.pending claim member references with ⟨other, inList, keys⟩ | done
    · rcases List.mem_cons.mp inList with rfl | later
      · have specs := progress.current other (.head _) claim member keys
        refine .inr (.inr ?_)
        unfold IsKept at notKept ⊢
        rw [← specs]
        exact notKept
      · exact .inl ⟨other, later, keys⟩
    · exact .inr done
  current other inList := progress.current other (.tail _ inList)

/-- The claim as deletion writes it back. -/
def detachedFrom (workload : Workload) (claim : ResourceClaim) : ResourceClaim :=
  { claim with
    metadata :=
      { claim.metadata with
        ownerReferences := claim.metadata.ownerReferences.filter
          fun ownerRef => !isWorkloadReference workload ownerRef } }

/-- After an update every object is an old one under another key, or carries what was
written. -/
theorem update_origin {kind : Kind} {object updated : kind.Object}
    (served : apiServer (.update kind object) before (.ok updated) after) :
    ∃ stored, before.find? kind object.key = some stored ∧
      ∀ row ∈ (after.table kind).rows,
        (row ∈ (before.table kind).rows ∧ row.key ≠ object.key) ∨
          (row.key = object.key ∧ row.spec = object.spec ∧
            row.metadata.ownerReferences = object.metadata.ownerReferences) := by
  obtain ⟨stored, found, _, replaced⟩ := apiServer_update_ok served
  obtain ⟨storedMember, keys⟩ := Store.find?_eq_some.mp found
  refine ⟨stored, found, fun row member => ?_⟩
  obtain ⟨same, -, rfl⟩ | ⟨_, -, rfl⟩ := Store.of_replace replaced
  · by_cases about : row.key = object.key
    · have equal := (after.table kind).eq_of_key_eq member storedMember (about.trans keys.symm)
      rw [equal, ← same]
      exact .inr ⟨keys, rfl, rfl⟩
    · exact .inl ⟨member, about⟩
  · rcases Store.mem_commit.mp member with ⟨rfl, _⟩ | ⟨old, about⟩
    · exact .inr ⟨keys, rfl, rfl⟩
    · have sameKey : (stored.updatedBy object).key = object.key := keys
      exact .inl ⟨old, sameKey ▸ about⟩

/-- A claim that was written back is detached. -/
theorem Progress.detach (named : workload.key = key) {updated : ResourceClaim}
    (progress : Progress key (listed :: rest) before)
    (served : apiServer (.update .resourceClaim (detachedFrom workload listed)) before
      (.ok updated) after) : Progress key rest after := by
  obtain ⟨stored, found, origin⟩ := update_origin served
  obtain ⟨storedMember, keys⟩ := Store.find?_eq_some.mp found
  have specs : (detachedFrom workload listed).spec = stored.spec :=
    progress.current listed (.head _) stored storedMember keys.symm
  refine ⟨?_, ?_, ?_⟩
  · intro claim member text
    rcases origin claim member with ⟨old, _⟩ | ⟨_, spec, _⟩
    · exact progress.schema claim old text
    · rw [spec, specs]
      exact progress.schema stored storedMember text
  · intro claim member references
    rcases origin claim member with ⟨old, apart⟩ | ⟨_, _, owners⟩
    · rcases progress.pending claim old references with ⟨other, inList, same⟩ | done
      · rcases List.mem_cons.mp inList with rfl | later
        · exact absurd same.symm apart
        · exact .inl ⟨other, later, same⟩
      · exact .inr done
    · refine .inr (.inl ?_)
      intro ownerRef inOwners
      rw [owners] at inOwners
      have kept := (List.mem_filter.mp inOwners).2
      subst named
      intro ⟨isWorkload, sameName⟩
      simp [isWorkloadReference, isWorkload, sameName, Resource.key] at kept
  · intro other inList claim member same
    rcases origin claim member with ⟨old, _⟩ | ⟨sameKey, spec, _⟩
    · exact progress.current other (.tail _ inList) claim old same
    · rw [spec, specs]
      exact progress.current other (.tail _ inList) stored storedMember
        (same.trans (sameKey.trans keys.symm))

theorem claimsSettle_delete {claimKey : NamespacedName} {reply : Except GoError Unit}
    (served : apiServer (.delete .resourceClaim claimKey) before reply after) :
    ClaimsSettle before after := by
  intro claim member
  rcases (apiServer_step served).of_mem member with old | ⟨_, ⟨stored, found, rfl⟩, rfl⟩
  · exact ⟨claim, old, .refl claim⟩
  · refine ⟨stored, Store.mem_of_find? found, ?_⟩
    unfold Resource.markedForDeletion
    split <;> exact ⟨rfl, rfl, rfl, rfl⟩

section

variable {key : NamespacedName} {workload : Workload} (named : workload.key = key)
  {history : List ApiEvent} {state : Store}

/-- An update of a claim says nothing about the Workload. -/
theorem deletionSafe_updateClaim {reply : Except GoError ResourceClaim}
    (served : apiServer (.update .resourceClaim claim) before reply after) :
    DeletionSafe key { request := .update .resourceClaim claim, reply, before, after } :=
  .of_carries rfl rfl
    (Carries.of_table (apiServer_table_of_leaves (by exact .inr nofun) served))

theorem deleteResourceClaim_progress (progress : Progress key (listed :: rest) state)
    (notKept : ¬ IsKept listed) :
    Safe (deletionContract key)
      (fun result _ later => result = .ok () → Progress key rest later)
      (deleteResourceClaim listed) history state := by
  unfold deleteResourceClaim
  split
  · intro later moved _
    exact (progress.skip notKept).settle moved.claims
  · intro before moved reply after served _
    have settled := progress.settle moved.claims
    have onward := claimsSettle_delete served
    refine ⟨⟨⟨nofun, ?_, ?_⟩, fun schema => schema.settle onward⟩, ?_⟩
    · intro claimKey deletes claim found
      cases deletes
      obtain ⟨member, keys⟩ := Store.find?_eq_some.mp found
      have specs := settled.current listed (.head _) claim member keys.symm
      unfold IsKept at notKept ⊢
      rw [← specs]
      exact notKept
    · intro carries gone
      have same : after.table .workload = before.table .workload :=
        apiServer_table_of_leaves (by exact .inr nofun) served
      exact absurd (carries.of_table same) gone
    · intro later further _
      exact ((settled.settle onward).skip notKept).settle further.claims

include named in
theorem removeOwnerReference_progress (progress : Progress key (listed :: rest) state) :
    Safe (deletionContract key)
      (fun result _ later => result = .ok () → Progress key rest later)
      (removeOwnerReference workload listed) history state := by
  intro before moved reply after served _
  have settled := progress.settle moved.claims
  refine ⟨⟨deletionSafe_updateClaim served, ?_⟩, ?_⟩
  · intro schema
    cases reply with
    | ok updated => exact (settled.detach named served).schema
    | error fault =>
      rw [apiServer_of_error served]
      exact schema
  · intro later further succeeded
    cases reply with
    | ok updated => exact (settled.detach named served).settle further.claims
    | error fault => cases succeeded

include named in
theorem processClaims_progress (progress : Progress key claims state) :
    Safe (deletionContract key)
      (fun result _ later => result = .ok () → Progress key [] later)
      (processClaims workload claims) history state := by
  induction claims generalizing history state with
  | nil =>
    intro later moved _
    exact progress.settle moved.claims
  | cons listed rest ih =>
    have acts : Safe (deletionContract key)
        (fun result _ later => result = .ok () → Progress key rest later)
        (processDeprovisionPolicy workload listed) history state := by
      unfold processDeprovisionPolicy
      split
      · rename_i policy
        apply deleteResourceClaim_progress progress
        intro kept
        rcases kept with kept | kept <;> simp [getDeprovisionPolicy, kept] at policy
      · exact removeOwnerReference_progress named progress
      · exact removeOwnerReference_progress named progress
      · rename_i policy
        apply deleteResourceClaim_progress progress
        intro kept
        rcases kept with kept | kept <;> simp [getDeprovisionPolicy, kept] at policy
    apply Safe.bind
    refine acts.mono fun result history later advanced => ?_
    cases result with
    | ok _ => exact ih (advanced rfl)
    | error fault =>
      intro final _ succeeded
      cases succeeded

/-! ### Letting go -/

/-- Once nothing is left to wait for, what is left is kept and detached. -/
theorem Progress.released {remaining : List ResourceClaim} (progress : Progress key [] store)
    (listing : Listing key remaining store) (nothing : ¬ claimsToWaitFor remaining > 0) :
    ∀ claim ∈ (store.table .resourceClaim).rows, References key claim →
      IsKept claim ∧ Detached key claim := by
  intro claim member references
  obtain ⟨listed, inList, _, specs⟩ := listing.covers claim member references
  have none : claimsToWaitFor remaining = 0 := Nat.eq_zero_of_not_pos nothing
  have notDelete := List.countP_eq_zero.mp none listed inList
  have schema := progress.schema claim member
  have kept : IsKept claim := by
    unfold IsKept
    simp only [getDeprovisionPolicy, specs, decide_eq_true_eq] at notDelete
    cases policy : claim.spec.deprovisionPolicy with
    | none => simp [policy] at notDelete
    | some policy' =>
      cases policy' with
      | delete => simp [policy] at notDelete
      | retain => exact .inl rfl
      | orphan => exact .inr rfl
      | other text => exact absurd policy (schema text)
  rcases progress.pending claim member references with ⟨_, absent, _⟩ | detached | notKept
  · cases absent
  · exact ⟨kept, detached⟩
  · exact absurd kept notKept

include named in
theorem finishDeletion_safe (settings : Settings) (progress : Progress key [] state) :
    Safe (deletionContract key) (fun _ _ _ => True)
      (finishDeletion settings workload) history state := by
  apply Safe.bind
  refine (getClaims_lists named (Progress key [])
    (fun moved progress => progress.settle moved.claims) progress).mono ?_
  intro listed history later both
  cases listed with
  | error fault => exact fun _ _ => trivial
  | ok remaining =>
    have listing := both.2 remaining rfl
    dsimp only
    split
    · exact fun _ _ => trivial
    · rename_i nothing
      apply Safe.bind
      unfold removeFinalizer
      split
      · intro before moved reply after served _
        have settled := both.1.settle moved.claims
        have released := settled.released (listing.settle moved.claims) nothing
        have same : after.table .resourceClaim = before.table .resourceClaim :=
          apiServer_table_of_leaves (by exact .inr nofun) served
        refine ⟨⟨⟨nofun, nofun, fun _ _ => released⟩, ?_⟩, ?_⟩
        · exact fun schema => schema.settle (.of_table same)
        · cases reply <;> exact fun _ _ _ _ => trivial
      · exact fun _ _ _ _ => trivial

include named in
theorem executeDeletionPipeline_safe (settings : Settings) (schema : PoliciesInSchema state) :
    Safe (deletionContract key) (fun _ _ _ => True)
      (executeDeletionPipeline settings workload) history state := by
  have phase : Safe (deletionContract key) (fun _ _ _ => True)
      (executeDeletionPhase settings workload) history state := by
    unfold executeDeletionPhase
    split
    · apply Safe.bind
      refine (getClaims_lists named PoliciesInSchema
        (fun moved schema => schema.settle moved.claims) schema).mono ?_
      intro listed history later both
      cases listed with
      | error fault => exact fun _ _ => trivial
      | ok claims =>
        apply Safe.bind
        refine (processClaims_progress named
          (.of_listing both.1 (both.2 claims rfl))).mono ?_
        intro processed history later advanced
        cases processed with
        | error fault => exact fun _ _ => trivial
        | ok _ => exact finishDeletion_safe named settings (advanced rfl)
    · exact fun _ _ => trivial
  apply Safe.bind
  refine phase.mono fun result history later _ => ?_
  split
  · exact fun _ _ => trivial
  · split <;> exact fun _ _ => trivial

end

/-! ### Under the finalizer -/

/-- A call that deletes no claim, and keeps the finalizer and the schema whatever the
server does. -/
structure Harmless (key : NamespacedName) {answer : Type} (request : Call answer) : Prop where
  deletes : request.deletes .resourceClaim = none
  carries : ∀ {before reply after}, apiServer request before reply after →
    Carries key before → Carries key after
  schema : ∀ {before reply after}, apiServer request before reply after →
    PoliciesInSchema before → PoliciesInSchema after

theorem Harmless.of_leaves {answer : Type} {request : Call answer}
    (deletes : request.deletes .resourceClaim = none) (workloads : request.Leaves .workload)
    (claims : request.Leaves .resourceClaim) : Harmless key request where
  deletes := deletes
  carries served := Carries.of_table (apiServer_table_of_leaves workloads served)
  schema served schema := schema.settle (.of_table (apiServer_table_of_leaves claims served))

theorem harmless_of_isRead (key : NamespacedName) {answer : Type} (request : Call answer)
    (reads : request.isRead) : Harmless key request := by
  refine .of_leaves ?_ (.inl reads) (.inl reads)
  cases request with
  | get | list => rfl
  | _ => cases reads

/-- A status update keeps the finalizers. -/
theorem carries_updateStatus {reply : Except GoError Workload}
    (served : apiServer (.updateStatus .workload workload) before reply after)
    (carries : Carries key before) : Carries key after := by
  rw [carries_iff_hasFinalizer] at carries ⊢
  exact carries.updateStatus served

/-- The calls of the normal phases.  A claim that they write gets a spec without a
policy. -/
theorem normalCalls_harmless (key : NamespacedName) :
    NormalCalls fun _ request => Harmless key request where
  reads _ := harmless_of_isRead key
  createClaim workload resourceKey resource := by
    refine ⟨rfl, ?_, ?_⟩
    · intro before reply after served
      exact Carries.of_table (apiServer_table_of_leaves (by exact .inr nofun) served)
    · intro before reply after served schema claim member text
      rcases (apiServer_step served).of_mem member with old | ⟨_, ⟨_, rfl⟩, rfl⟩
      · exact schema claim old text
      · nofun
  updateClaim claim workload resourceKey resource := by
    refine ⟨rfl, ?_, ?_⟩
    · intro before reply after served
      exact Carries.of_table (apiServer_table_of_leaves (by exact .inr nofun) served)
    · intro before reply after served schema claim member text
      rcases (apiServer_step served).of_mem member with old | ⟨_, ⟨stored, _, _, rfl⟩, rfl⟩
      · exact schema claim old text
      · nofun
  createPlan plan := .of_leaves rfl (.inr nofun) (.inr nofun)
  updatePlan plan := .of_leaves rfl (.inr nofun) (.inr nofun)
  updateWorkloadStatus runtimeNow readyNow workload plan := by
    refine ⟨rfl, carries_updateStatus, ?_⟩
    intro before reply after served schema
    exact schema.settle
      (.of_table (apiServer_table_of_leaves (by exact .inr nofun) served))

section

variable {key : NamespacedName} {history : List ApiEvent}
  {state : Store}

theorem executeNormalPipeline_safe (settings : Settings) (context : PhaseContext)
    (carries : Carries key state) (schema : PoliciesInSchema state) :
    Safe (deletionContract key) (fun _ _ _ => True)
      (executeNormalPipeline (normalPhases settings) context) history state := by
  have makes := executeNormalPipeline_makes
    (normalPhases_makes (normalCalls_harmless key) settings) context
  refine (Safe.of_makes_while
    (fun store => Carries key store ∧ PoliciesInSchema store) ?_ makes
    ⟨carries, schema⟩ ?_).mono fun _ _ _ _ => trivial
  · exact fun moved both => ⟨moved.workload both.1, both.2.settle moved.claims⟩
  · intro answer request harmless history before reply after both served _
    have carried := harmless.carries served both.1
    refine ⟨⟨⟨fun _ => both.1, ?_, ?_⟩, harmless.schema served⟩, carried,
      harmless.schema served both.2⟩
    · intro claimKey deletes
      rw [harmless.deletes] at deletes
      cases deletes
    · exact fun _ gone => absurd carried gone

/-- An update that sends the finalizer leaves it on the Workload. -/
theorem carries_update {updated : Workload} (named : workload.key = key)
    (has : hasFinalizer workload)
    (served : apiServer (.update .workload workload) before (.ok updated) after) :
    Carries key after := by
  rw [carries_iff_hasFinalizer]
  exact .of_update named (by simpa [hasFinalizer] using has) served

theorem hasFinalizer_added (workload : Workload) :
    hasFinalizer (withFinalizers workload
      (workload.metadata.finalizers ++ [workloadFinalizer])) = true := by
  simp [hasFinalizer, withFinalizers]

/-- After `EnsureFinalizer` the stored Workload has the finalizer. -/
theorem ensureFinalizer_carries (found : state.find? .workload key = some workload)
    (schema : PoliciesInSchema state) :
    Safe (deletionContract key)
      (fun ensured _ later => PoliciesInSchema later ∧
        (ensured.toOption.isSome → Carries key later))
      (ensureFinalizer workload) history state := by
  have named := Store.key_of_find? found
  unfold ensureFinalizer
  split
  · rename_i has
    intro later moved
    exact ⟨schema.settle moved.claims, fun _ => moved.workload ⟨workload, found, has⟩⟩
  · intro before moved reply after served _
    have claims : after.table .resourceClaim = before.table .resourceClaim :=
      apiServer_table_of_leaves (by exact .inr nofun) served
    have settled := (schema.settle moved.claims).settle (.of_table claims)
    cases reply with
    | ok updated =>
      have sentKey : (withFinalizers workload
          (workload.metadata.finalizers ++ [workloadFinalizer])).key = key := named
      have carries := carries_update sentKey (hasFinalizer_added workload) served
      refine ⟨⟨.of_carries rfl rfl fun _ => carries, fun _ => settled⟩, ?_⟩
      exact fun later further =>
        ⟨settled.settle further.claims, fun _ => further.workload carries⟩
    | error fault =>
      have same := apiServer_of_error served
      refine ⟨⟨.of_carries rfl rfl fun carries => same ▸ carries, fun _ => settled⟩, ?_⟩
      exact fun later further => ⟨settled.settle further.claims, nofun⟩

theorem reconcileWorkload_deletionSafe (settings : Settings) (schema : PoliciesInSchema state) :
    Safe (deletionContract key) (fun _ _ _ => True)
      (reconcileWorkload settings key) history state := by
  intro before moved reply after served _
  refine ⟨guarantee_of_isRead rfl served, ?_⟩
  have settled := schema.settle moved.claims
  simp only [done_bind]
  cases reply with
  | error fault =>
    dsimp only
    split <;> exact fun _ _ => trivial
  | ok workload =>
    obtain ⟨found, same⟩ := apiServer_get_ok served
    subst same
    dsimp only
    unfold executePipeline
    split
    · exact executeDeletionPipeline_safe (Store.key_of_find? found) settings settled
    · apply Safe.bind
      refine (ensureFinalizer_carries found settled).mono ?_
      intro ensured history later both
      cases ensured with
      | error fault => exact fun _ _ => trivial
      | ok workload => exact executeNormalPipeline_safe settings _ (both.2 rfl) both.1

end

/-! ### Every interleaving -/

def deletionVerified (key : NamespacedName) :
    Verified (deletionRules key) PoliciesInSchema where
  invariant := PoliciesInSchema
  rely _ := OthersMove key
  rely_refl _ := .refl key
  rely_trans _ _ _ _ := .trans
  guarantee _ _ event := DeletionSafe key event ∧
    (PoliciesInSchema event.before → PoliciesInSchema event.after)
  invariant_initial := id
  invariant_environment schema moved := schema.settle moved.claims
  invariant_exchange schema kept := kept.2 schema
  rely_environment _ moved := moved
  rely_exchange apart := absurd rfl apart
  safe {_ program state} starts schema := by
    obtain ⟨settings, rfl⟩ := starts
    exact (reconcileWorkload_deletionSafe settings schema).discard

/-- Deletion safety: in every interleaving of pipeline runs with provisioners and the
user's delete request, a claim is created only under the finalizer, no claim to be
kept is deleted, and the finalizer goes only when the claims left are kept and
detached. -/
theorem deletionSafe_of_reachable {key : NamespacedName}
    {system next : System Unit Call GoError Store} {history : List ApiEvent} {event : ApiEvent}
    (reached : Reachable (deletionRules key) PoliciesInSchema system)
    (moved : System.Step (deletionRules key) system (.exchange () history event) next) :
    DeletionSafe key event :=
  ((deletionVerified key).guarantee_of_reachable reached moved).1

/-! ### A run -/

def ownerWorkload : Workload where
  metadata := { name := "web", ns := "default", uid := "u1", finalizers := [workloadFinalizer] }
  spec := {}
  status := default

/-- A claim of that Workload with the given policy. -/
def claimUnder (name : String) (policy : Option DeprovisionPolicy) : ResourceClaim where
  metadata :=
    { name
      ns := "default"
      finalizers := [Provisioner.resourceClaimFinalizer]
      ownerReferences := [claimOwnerReference ownerWorkload] }
  spec :=
    { workloadRef := ⟨"default", "web"⟩
      key := name
      type := "secret"
      deprovisionPolicy := policy }
  status := default

/-- A Workload with one claim to delete and one to retain. -/
def ownedStore : Store :=
  ((Store.empty.insert .workload ownerWorkload).insert .resourceClaim
    (claimUnder "web-db" none)).insert .resourceClaim
      (claimUnder "web-token" (some .retain))

def ownerKey : NamespacedName := ⟨"default", "web"⟩

@[irreducible] def afterDeleteRequest (store : Store) : Store :=
  (serve (.delete .workload ownerKey) store).2

/-- One pipeline run. -/
def deletionRun : Client Unit := (reconcileWorkload quietSettings ownerKey).discard

@[irreducible] def deletionEvents (store : Store) : List ApiEvent :=
  (deletionRun.execute serve [] store).1

@[irreducible] def afterDeletionRun (store : Store) : Store :=
  (deletionRun.execute serve [] store).2.2

/-- The provisioner lets go of the claim web-db as it is stored. -/
@[irreducible] def afterRelease (store : Store) : Store :=
  match store.find? .resourceClaim ⟨"default", "web-db"⟩ with
  | some claim => (serve (.update .resourceClaim (Provisioner.removeFinalizer claim)) store).2
  | none => store

section

variable {store : Store}
  (reached : Reachable (deletionRules ownerKey) PoliciesInSchema
    { state := store, thread := fun _ => none })
include reached

theorem reachable_afterDeleteRequest :
    Reachable (deletionRules ownerKey) PoliciesInSchema
      { state := afterDeleteRequest store, thread := fun _ => none } := by
  apply reached.step (.environment _)
  unfold afterDeleteRequest
  have served : apiServer (.delete .workload ownerKey) store
      (serve (.delete .workload ownerKey) store).1
      (serve (.delete .workload ownerKey) store).2 := .inl rfl
  exact othersMove_deleteRequest served

theorem reachable_afterRelease :
    Reachable (deletionRules ownerKey) PoliciesInSchema
      { state := afterRelease store, thread := fun _ => none } := by
  apply reached.step (.environment _)
  unfold afterRelease
  split
  · rename_i claim found
    have current : store.find? .resourceClaim claim.key = some claim := by
      rw [Store.key_of_find? found]
      exact found
    have served : apiServer (.update .resourceClaim (Provisioner.removeFinalizer claim)) store
        (serve (.update .resourceClaim (Provisioner.removeFinalizer claim)) store).1
        (serve (.update .resourceClaim (Provisioner.removeFinalizer claim)) store).2 :=
      .inl rfl
    exact othersMove_releaseClaim current served
  · exact .refl _ _

theorem reachable_afterDeletionRun
    (admitted : Admitted (deletionRules ownerKey) () [] (deletionEvents store)) :
    Reachable (deletionRules ownerKey) PoliciesInSchema
      { state := afterDeletionRun store, thread := fun _ => none } := by
  unfold deletionEvents at admitted
  unfold afterDeletionRun
  refine reached.run () rfl ?_ (runs_execute serve deletionRun [] store) admitted
  exact ⟨quietSettings, rfl⟩

end

/-- No reply of the run is a fault. -/
def answersAll (events : List ApiEvent) : Bool :=
  events.all fun event => event.reply.toOption.isSome

theorem admitted_of_answersAll {history events : List ApiEvent}
    (answers : answersAll events = true) : Admitted (deletionRules ownerKey) () history events := by
  induction events generalizing history with
  | nil => trivial
  | cons event rest ih =>
    simp only [answersAll, List.all_cons, Bool.and_eq_true] at answers
    refine ⟨?_, ih answers.2⟩
    intro fault failed
    rw [failed] at answers
    cases answers.1

/-- The cluster when only the claim to retain is left. -/
def settledStore : Store := afterRelease (afterDeletionRun (afterDeleteRequest ownedStore))

/-- An exchange that takes the finalizer off the Workload. -/
def takesFinalizer (event : ApiEvent) : Bool :=
  (event.before.find? .workload ownerKey).any hasFinalizer &&
    !(event.after.find? .workload ownerKey).any hasFinalizer

theorem carries_iff :
    Carries ownerKey store ↔ (store.find? .workload ownerKey).any hasFinalizer = true := by
  simp [Carries, Option.any_eq_true]

/-- Delete request, pipeline run, release by the provisioner, pipeline run: the last
run takes the finalizer off while the retained claim is still there. -/
theorem deletionSafe_of_reachable_settled :
    ∃ history event, ∃ system next : System Unit Call GoError Store,
      Reachable (deletionRules ownerKey) PoliciesInSchema system ∧
      System.Step (deletionRules ownerKey) system (.exchange () history event) next ∧
      Carries ownerKey event.before ∧ ¬ Carries ownerKey event.after ∧
      DeletionSafe ownerKey event := by
  have schema : PoliciesInSchema ownedStore := by
    have all : (ownedStore.table .resourceClaim).rows.all (fun claim =>
        claim.spec.deprovisionPolicy = none ||
          claim.spec.deprovisionPolicy = some .retain) = true := by decide +kernel
    intro claim member text other
    have known := List.all_eq_true.mp all claim member
    simp [other] at known
  have first : answersAll (deletionEvents (afterDeleteRequest ownedStore)) = true := by
    decide +kernel
  have second : answersAll (deletionEvents settledStore) = true := by decide +kernel
  have takes : (deletionEvents settledStore).any takesFinalizer = true := by
    decide +kernel
  have reached := reachable_afterRelease (reachable_afterDeletionRun
    (reachable_afterDeleteRequest (.initial schema)) (admitted_of_answersAll first))
  have admitted : Admitted (deletionRules ownerKey) () []
      (deletionEvents settledStore) := admitted_of_answersAll second
  unfold deletionEvents at takes admitted
  obtain ⟨event, member, taken⟩ := List.any_eq_true.mp takes
  obtain ⟨history, system, next, _, there, step⟩ :=
    reached.exists_exchange_of_mem () rfl ⟨quietSettings, rfl⟩
      (runs_execute serve deletionRun [] settledStore) admitted member
  simp only [takesFinalizer, Bool.and_eq_true, Bool.not_eq_true'] at taken
  refine ⟨history, event, system, next, there, step, carries_iff.mpr taken.1, ?_,
    deletionSafe_of_reachable there step⟩
  rw [carries_iff, taken.2]
  exact Bool.false_ne_true

end ScoreOrchestrator.Controller
