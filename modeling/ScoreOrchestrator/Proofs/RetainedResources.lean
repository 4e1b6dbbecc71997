/-
Module: Proofs.RetainedResources
Purpose: What the reconcile of a claim that is being deleted does to the objects that
  were provisioned for the claim, by its deprovision policy.
-/
import ScoreOrchestrator.Proofs.ClaimCleanup
import ScoreOrchestrator.Proofs.DeletionSafety
import ScoreOrchestrator.Proofs.HealthChecks

namespace ScoreOrchestrator.Provisioner

open Foundation Program
open Controller (IsKept)

variable {kind : Kind} {object : kind.Object} {before after : Store}
  {events : List ApiEvent} {claim : ResourceClaim} {store : Store}
  {key : NamespacedName}

/-! ### Vocabulary -/

/-- A stored StatefulSet, Service or Secret that is controlled by the claim. -/
structure ProvisionedFor (claim : ResourceClaim) (store : Store) (kind : Kind)
    (object : kind.Object) : Prop where
  provisionable : kind = .statefulSet ∨ kind = .service ∨ kind = .secret
  stored : store.find? kind object.key = some object
  ns : object.metadata.ns = claim.metadata.ns
  owner : controllerReference claim ∈ object.metadata.ownerReferences

/-- The policy asks for what was provisioned to be removed. -/
def IsRemoved (claim : ResourceClaim) : Prop :=
  claim.spec.deprovisionPolicy = none ∨ claim.spec.deprovisionPolicy = some .delete

/-- A reconcile takes the finalizer off if every call is carried out, and no reconcile,
whatever calls fail, deletes or changes what was provisioned. -/
def Retains (key : NamespacedName) (claim : ResourceClaim) (store : Store) : Prop :=
  (∀ random now, ∃ after, Reconciles (provisionerAt random now) key store after ∧
    ¬ Carries key after) ∧
  ∀ random now events outcome after,
    (reconcileClaim (provisionerAt random now) key).Runs apiServer store events
      outcome after →
    ∀ kind object, ProvisionedFor claim store kind object →
      after.find? kind object.key = some object

/-- Whatever calls fail, when the finalizer goes, all that was provisioned is deleted:
it is gone or waits for finalizers of its own. -/
def DeletesFirst (key : NamespacedName) (claim : ResourceClaim) (store : Store) : Prop :=
  ∀ random now events outcome after,
    (reconcileClaim (provisionerAt random now) key).Runs apiServer store events
      outcome after →
    (∀ event ∈ events, DeletesTruthfully event) →
    ∀ event ∈ events, Carries key event.before → ¬ Carries key event.after →
      ∀ kind object, ProvisionedFor claim event.before kind object →
        object.isBeingDeleted = true

/-- What the policy of the claim promises. -/
structure PolicyHonoured (key : NamespacedName) (claim : ResourceClaim) (store : Store) : Prop where
  retains : IsKept claim → Retains key claim store
  deletes : IsRemoved claim → DeletesFirst key claim store

theorem ProvisionedFor.ne_resourceClaim (provisioned : ProvisionedFor claim store kind object) :
    kind ≠ .resourceClaim := by
  rcases provisioned.provisionable with rfl | rfl | rfl <;> exact nofun

/-! ### What a reconcile leaves alone -/

/-- The calls that retire a claim. -/
def Retires (claim : ResourceClaim) ⦃answer : Type⦄ : Call answer → Prop
  | .delete kind key => (kind, key) ∈ objectsOf claim
  | .update kind _ => kind = .resourceClaim
  | _ => False

theorem releaseClaim_makes (claim : ResourceClaim) :
    (releaseClaim claim).Makes (Retires claim) := by
  refine ⟨rfl, fun updated => ?_⟩
  cases updated <;> trivial

theorem handleDeletion_makes (random : RandomText) (now : Time) (claim : ResourceClaim) :
    (handleDeletion (provisionerAt random now) claim).Makes (Retires claim) := by
  unfold handleDeletion
  split
  · split
    · exact releaseClaim_makes claim
    next strategy selected =>
      apply (strategyOf_deprovision_makes selected fun member => member).bind
      intro deprovisioned
      cases deprovisioned with
      | error fault => trivial
      | ok _ => exact releaseClaim_makes claim
  · trivial

/-- A second delete of an object that waits for its finalizers changes nothing. -/
theorem find?_of_delete_marked {reply : Except GoError Unit}
    (found : before.find? kind key = some object) (marked : object.isBeingDeleted = true)
    (served : apiServer (.delete kind key) before reply after) :
    after.find? kind key = some object := by
  rcases apiServer_cases served with served | ⟨_, same⟩
  · have live := before.live _ object (Store.mem_of_find? found)
    have waits : object.metadata.finalizers ≠ [] := by
      intro bare
      simp only [Resource.isBeingDeleted] at marked
      simp [Resource.isReleased, bare, marked] at live
    have unchanged : object.markedForDeletion before.revision = object := by
      simp [Resource.markedForDeletion, marked]
    simp only [serve, found, waits, if_false, unchanged, Store.replace, if_true] at served
    cases served
    exact found
  · rw [same]
    exact found

/-- What is not among the claim's objects, or deleted already, stays as it is. -/
theorem find?_of_retires {answer : Type} {request : Call answer} {reply : Except GoError answer}
    (retires : Retires claim request) (served : apiServer request before reply after)
    (different : kind ≠ .resourceClaim) (found : before.find? kind object.key = some object)
    (spared : (kind, object.key) ∈ objectsOf claim → object.isBeingDeleted = true) :
    after.find? kind object.key = some object := by
  cases request with
  | delete other key =>
    by_cases same : (kind, object.key) = (other, key)
    · cases same
      exact find?_of_delete_marked found (spared retires) served
    · rw [apiServer_find?_of_target_ne _ served]
      · exact found
      · exact fun aimed => same (Option.some.inj aimed).symm
  | update other sent =>
    have others : after.table kind = before.table kind := by
      apply apiServer_table_of_leaves _ served
      right
      rw [show (Call.update other sent).kind = .resourceClaim from retires]
      exact different
    rw [Store.find?, others]
    exact found
  | _ => cases retires

/-- So does a whole program of such calls. -/
theorem find?_of_makes_retires (claim : ResourceClaim) {α : Type} {program : Client α}
    {outcome : Outcome α} (makes : program.Makes (Retires claim))
    (run : program.Runs apiServer before events outcome after) (different : kind ≠ .resourceClaim)
    (found : before.find? kind object.key = some object)
    (spared : (kind, object.key) ∈ objectsOf claim → object.isBeingDeleted = true) :
    after.find? kind object.key = some object := by
  refine run.of_makes
    (fun before after : Store => before.find? kind object.key = some object →
      after.find? kind object.key = some object) ?_ ?_ ?_ makes found
  · exact fun _ => id
  · exact fun early late there => late (early there)
  · intro answer request retires before reply after served there
    exact find?_of_retires retires served different there spared

section

variable {key : NamespacedName} {claim : ResourceClaim} {store : Store}
  (found : store.find? .resourceClaim key = some claim)
  (deleting : claim.isBeingDeleted = true)
include found deleting

/-- And a reconcile of a claim that is being deleted. -/
theorem find?_of_reconcile {random : RandomText} {now : Time}
    {outcome : Outcome (Controller.ReconcileResult × Option GoError)}
    (run : (reconcileClaim (provisionerAt random now) key).Runs apiServer store
      events outcome after) (different : kind ≠ .resourceClaim)
    (stored : store.find? kind object.key = some object)
    (spared : (kind, object.key) ∈ objectsOf claim → object.isBeingDeleted = true) :
    after.find? kind object.key = some object := by
  cases run with
  | interrupted => exact stored
  | @call _ _ _ _ middle _ reply _ _ served rest =>
    obtain rfl := apiServer_of_isRead rfl served
    simp only [done_bind] at rest
    refine find?_of_makes_retires claim ?_ rest different stored spared
    cases reply with
    | error fault =>
      dsimp only
      split <;> trivial
    | ok read =>
      obtain ⟨present, _⟩ := apiServer_get_ok served
      obtain rfl := Option.some.inj (found.symm.trans present)
      dsimp only
      rw [if_pos deleting]
      split
      · exact handleDeletion_makes random now claim
      · trivial

end

/-! ### What a reconcile has deleted -/

/-- Since the start only objects of the claim have changed. -/
structure OnlyObjectsChanged (claim : ResourceClaim) (start state : Store) : Prop where
  claims : state.table .resourceClaim = start.table .resourceClaim
  others : ∀ kind key, (kind, key) ∉ objectsOf claim →
    state.find? kind key = start.find? kind key

/-- The terms of a reconcile that runs alone: when the finalizer goes, the objects of
the claim are deleted, and the rest is as it was. -/
def retireContract (key : NamespacedName) (claim : ResourceClaim) (start : Store) :
    Contract Call GoError Store where
  service := apiServer
  rely before after := after = before
  rely_refl _ := rfl
  rely_trans one two := two.trans one
  admits _ event := DeletesTruthfully event
  guarantee _ event := Carries key event.before → ¬ Carries key event.after →
    OnlyObjectsChanged claim start event.before ∧
      ∀ target ∈ objectsOf claim, Deleted event.before target

section

variable {key : NamespacedName} {claim : ResourceClaim} {start : Store}

theorem OnlyObjectsChanged.delete {objectKey : NamespacedName} {reply : Except GoError Unit}
    (only : OnlyObjectsChanged claim start before) (member : (kind, objectKey) ∈ objectsOf claim)
    (served : apiServer (.delete kind objectKey) before reply after) :
    OnlyObjectsChanged claim start after where
  claims := by
    have leaves : .resourceClaim ≠ kind := (ne_resourceClaim_of_mem_objectsOf member).symm
    exact (apiServer_table_of_leaves (by exact .inr leaves) served).trans only.claims
  others other otherKey outside := by
    rw [apiServer_find?_of_target_ne _ served]
    · exact only.others other otherKey outside
    · intro aimed
      cases aimed
      exact outside member

theorem retireTerms : CleanupTerms id (retireContract key claim start) (objectsOf claim)
    (OnlyObjectsChanged claim start) where
  serves served := served
  stable moved held := moved ▸ held
  keeps moved _ _ deleted := moved ▸ deleted
  truthful admitted := admitted
  promise {kind _ _ before _ after} member held served := by
    refine ⟨fun carries gone => absurd ?_ gone, held.delete member served⟩
    have leaves : .resourceClaim ≠ kind := (ne_resourceClaim_of_mem_objectsOf member).symm
    exact carries.of_table (apiServer_table_of_leaves (by exact .inr leaves) served)

/-- The server takes the finalizer off the version that is stored. -/
theorem exists_released {middle : Store} (has : hasFinalizer claim = true)
    (held : middle.find? .resourceClaim key = some claim) :
    ∃ released after, serve (.update .resourceClaim (removeFinalizer claim)) middle =
        (.ok released, after) ∧ ¬ Carries key after ∧
      ∀ kind, kind ≠ .resourceClaim → after.table kind = middle.table kind := by
  have named : (removeFinalizer claim).key = key := Store.key_of_find? held
  have carried : resourceClaimFinalizer ∈ claim.metadata.finalizers := by
    simpa [hasFinalizer] using has
  have dropped : resourceClaimFinalizer ∉
      (claim.updatedBy (removeFinalizer claim)).metadata.finalizers := by
    simp [Resource.updatedBy, removeFinalizer]
  have changed : claim.updatedBy (removeFinalizer claim) ≠ claim := by
    intro same
    rw [same] at dropped
    exact dropped carried
  have version : (removeFinalizer claim).metadata.resourceVersion =
    claim.metadata.resourceVersion := rfl
  have served : serve (.update .resourceClaim (removeFinalizer claim)) middle =
      (.ok (middle.commit .resourceClaim (claim.updatedBy (removeFinalizer claim))).1,
        (middle.commit .resourceClaim (claim.updatedBy (removeFinalizer claim))).2) := by
    rw [← named] at held
    simp only [serve, Store.replaceRead, held, version, if_true, Store.replace, changed,
      if_false]
  refine ⟨_, _, served, ?_, fun kind different => ?_⟩
  · rintro ⟨object, finds, carries⟩
    obtain ⟨member, keys⟩ := Store.find?_eq_some.mp finds
    rcases Store.mem_commit.mp member with ⟨rfl, _⟩ | ⟨_, different⟩
    · exact dropped carries
    · exact different (keys.trans (Store.key_of_find? held).symm)
  · exact middle.commit_table_of_ne _ different

variable (found : start.find? .resourceClaim key = some claim)
  (deleting : claim.isBeingDeleted = true) (has : hasFinalizer claim = true)
  (provisioned : IsProvisioned claim)
include found deleting has provisioned

theorem reconcileClaim_retires (random : RandomText) (now : Time) :
    Safe (retireContract key claim start) (fun _ _ _ => True)
      (reconcileClaim (provisionerAt random now) key) [] start := by
  intro before moved reply after served _
  obtain rfl := moved
  obtain rfl := apiServer_of_isRead rfl served
  refine ⟨fun carries gone => absurd carries gone, ?_⟩
  simp only [done_bind]
  cases reply with
  | error fault =>
    dsimp only
    split <;> exact fun _ _ => trivial
  | ok read =>
    obtain ⟨present, _⟩ := apiServer_get_ok served
    obtain rfl := Option.some.inj (found.symm.trans present)
    obtain ⟨strategy, selected, registered⟩ := exists_registered provisioned random now
    simp only [shouldReconcile, deleting, has, handleDeletion, registered, if_true,
      Bool.not_true, Bool.and_false, Bool.false_eq_true, if_false]
    apply Safe.bind
    refine (deprovision_safe selected retireTerms
      (⟨rfl, fun _ _ _ => rfl⟩ : OnlyObjectsChanged claim after after)).mono ?_
    rintro (fault | _) history later ⟨only, deleted⟩
    · exact fun _ _ => trivial
    intro before moved reply final released _
    obtain rfl := moved
    refine ⟨fun _ _ => ⟨only, deleted rfl⟩, ?_⟩
    cases reply <;> exact fun _ _ => trivial

/-- A reconcile of which every call is carried out: the claim's objects are deleted, then
the finalizer goes. -/
theorem exists_retired (random : RandomText) (now : Time) :
    ∃ events result after,
      (reconcileClaim (provisionerAt random now) key).Runs healthyServer start
        events (.returned result) after ∧
      ¬ Carries key after ∧ (∀ target ∈ objectsOf claim, Deleted after target) ∧
      ∃ event ∈ events, Carries key event.before ∧ ¬ Carries key event.after ∧
        OnlyObjectsChanged claim start event.before := by
  obtain ⟨strategy, selected, registered⟩ := exists_registered provisioned random now
  obtain ⟨early, middle, deprovisions⟩ := exists_run_deprovision selected start
  have unreliable := runs_apiServer_of_healthyServer deprovisions
  have admitted : (retireContract key claim start).Admitted [] early :=
    .of_mem (fun event member _ =>
      deletesTruthfully_of_healthyServer deprovisions event member) []
  have safe : Safe (retireContract key claim start) _ (strategy.deprovision claim)
      [] start := deprovision_safe selected retireTerms ⟨rfl, fun _ _ _ => rfl⟩
  obtain ⟨only, deleted⟩ := (safe.sound unreliable admitted).2 _ rfl
  have held : middle.find? .resourceClaim key = some claim := by
    rw [Store.find?, only.claims]
    exact found
  obtain ⟨released, after, served, gone, others⟩ := exists_released has held
  let release : ApiEvent :=
    { request := .update .resourceClaim (removeFinalizer claim), reply := .ok released
      before := middle, after }
  have retires : (handleDeletion (provisionerAt random now) claim).Runs healthyServer
      start (early ++ [release]) (.returned ({}, none)) after := by
    simp only [handleDeletion, has, registered, if_true]
    exact deprovisions.bind (.call served (.done _ _))
  have should : shouldReconcile claim = true := by simp [shouldReconcile, deleting, has]
  obtain ⟨read, run⟩ := runs_reconcile_of_found found (by
    rw [if_pos should, if_pos deleting]
    exact retires)
  have carries : Carries key middle := ⟨claim, held, by simpa [hasFinalizer] using has⟩
  refine ⟨_, _, after, run, gone, fun target member object present => ?_,
    release, by simp, carries, gone, only⟩
  rw [Store.find?, others _ (ne_resourceClaim_of_mem_objectsOf member)] at present
  exact deleted rfl target member object present

end

/-! ### The policies -/

/-- Nothing that the claim's type deletes is to be kept, and everything that is to be
removed is among what it deletes. -/
def TypeFits (claim : ResourceClaim) (store : Store) : Prop :=
  (IsKept claim → ∀ kind object, ProvisionedFor claim store kind object →
    object.isBeingDeleted = false → (kind, object.key) ∉ objectsOf claim) ∧
  (IsRemoved claim → ∀ kind object, ProvisionedFor claim store kind object →
    object.isBeingDeleted = false → (kind, object.key) ∈ objectsOf claim)

section

variable (found : store.find? .resourceClaim key = some claim)
include found

theorem policyHonoured_iff_typeFits (deleting : claim.isBeingDeleted = true)
    (has : hasFinalizer claim = true) (provisioned : IsProvisioned claim) :
    PolicyHonoured key claim store ↔ TypeFits claim store := by
  obtain ⟨events, result, after, run, gone, deleted, release, member, carries, drops, only⟩ :=
    exists_retired found deleting has provisioned (.ok "") 0
  constructor
  · rintro ⟨retains, deletes⟩
    refine ⟨fun kept kind object owned live among => ?_, fun removed kind object owned live => ?_⟩
    · have stays := (retains kept).2 _ _ _ _ _ (runs_apiServer_of_healthyServer run) kind
        object owned
      have marked := deleted (kind, object.key) among object stays
      rw [live] at marked
      cases marked
    · by_contra outside
      have stays : release.before.find? kind object.key = some object :=
        (only.others kind object.key outside).trans owned.stored
      have marked := deletes removed _ _ _ _ _ (runs_apiServer_of_healthyServer run)
        (deletesTruthfully_of_healthyServer run) release member carries drops kind object
        ⟨owned.provisionable, stays, owned.ns, owned.owner⟩
      rw [live] at marked
      cases marked
  · rintro ⟨spared, covered⟩
    refine ⟨fun kept => ⟨fun random now => ?_, ?_⟩, fun removed => ?_⟩
    · obtain ⟨events, result, after, run, gone, _⟩ :=
        exists_retired found deleting has provisioned random now
      exact ⟨after, ⟨events, result, run⟩, gone⟩
    · intro random now events outcome after run kind object owned
      refine find?_of_reconcile found deleting run owned.ne_resourceClaim owned.stored ?_
      intro among
      by_contra live
      exact spared kept kind object owned (Bool.eq_false_iff.mpr live) among
    · intro random now events outcome after run truthful event among carries drops kind object owned
      have safe := reconcileClaim_retires found deleting has provisioned random now
      have kept := (safe.sound run (.of_mem (fun event member _ => truthful event member) [])).1
      obtain ⟨only, deleted⟩ := kept.of_mem (fun _ _ promise => promise) event among carries
        drops
      by_contra live
      by_cases inside : (kind, object.key) ∈ objectsOf claim
      · exact live (deleted _ inside object owned.stored)
      · have stored := (only.others kind object.key inside).symm.trans owned.stored
        exact inside (covered removed kind object
          ⟨owned.provisionable, stored, owned.ns, owned.owner⟩ (Bool.eq_false_iff.mpr live))

/-- A reconcile of a claim that it has nothing to do with only reads it. -/
theorem runs_skipped (skips : shouldReconcile claim = false) {settings : ProvisionerSettings}
    {outcome : Outcome (Controller.ReconcileResult × Option GoError)}
    (run : (reconcileClaim settings key).Runs apiServer store events outcome after) :
    after = store ∧ ∀ event ∈ events, event.before = store := by
  cases run with
  | interrupted => simp
  | @call _ _ _ _ middle _ reply _ _ served rest =>
    obtain rfl := apiServer_of_isRead rfl served
    simp only [done_bind] at rest
    cases reply with
    | error fault =>
      dsimp only at rest
      split at rest <;> cases rest <;> simp
    | ok read =>
      obtain ⟨present, _⟩ := apiServer_get_ok served
      obtain rfl := Option.some.inj (found.symm.trans present)
      simp only [skips, Bool.false_eq_true, if_false] at rest
      cases rest <;> simp

theorem policyHonoured_of_released (deleting : claim.isBeingDeleted = true)
    (released : hasFinalizer claim = false) : PolicyHonoured key claim store := by
  have skips : shouldReconcile claim = false := by
    simp [shouldReconcile, deleting, released]
  have bare : ¬ Carries key store := by
    rintro ⟨object, present, carries⟩
    obtain rfl := Option.some.inj (found.symm.trans present)
    simp [hasFinalizer, carries] at released
  refine ⟨fun _ => ⟨fun random now => ⟨store, reconciles_skipped found skips, bare⟩, ?_⟩, ?_⟩
  · intro random now events outcome after run kind object owned
    rw [(runs_skipped found skips run).1]
    exact owned.stored
  · intro _ random now events outcome after run _ event member carries
    rw [(runs_skipped found skips run).2 event member] at carries
    exact absurd carries bare

end

/-- For a claim that is being deleted the policy makes no difference: under the finalizer
the objects of the claim's type are deleted and nothing else.  So Retain and Orphan are
honoured exactly if no object of that type is left to delete, and Delete exactly if no
object of another one is. -/
theorem policyHonoured_iff {key : NamespacedName} {claim : ResourceClaim} {store : Store}
    (found : store.find? .resourceClaim key = some claim) (deleting : claim.isBeingDeleted = true)
    (provisioned : IsProvisioned claim) :
    PolicyHonoured key claim store ↔ (hasFinalizer claim = true → TypeFits claim store) := by
  cases has : hasFinalizer claim with
  | true =>
    rw [policyHonoured_iff_typeFits found deleting has provisioned]
    simp
  | false =>
    have honoured := policyHonoured_of_released found deleting has
    simp [honoured]

/-! ### A redis claim -/

/-- The claim web-cache with a policy. -/
def heldUnder (policy : Option DeprovisionPolicy) : ResourceClaim :=
  { heldClaim with spec := { heldClaim.spec with deprovisionPolicy := policy } }

/-- The cluster after the claim was provisioned and somebody has asked for its
deletion. -/
@[irreducible] def deletedUnder (policy : Option DeprovisionPolicy) : Store :=
  (serve (.delete .resourceClaim heldClaim.key)
    (afterReconcile (Store.empty.insert .resourceClaim (heldUnder policy)))).2

/-- A claim to be retired. -/
def isRetired (claim : ResourceClaim) : Bool :=
  claim.isBeingDeleted && hasFinalizer claim &&
    ["postgres", "redis", "secret"].contains claim.spec.type

theorem isRetired_iff :
    isRetired claim = true ↔ claim.isBeingDeleted = true ∧ hasFinalizer claim = true ∧
      IsProvisioned claim := by
  simp [isRetired, IsProvisioned, and_assoc]

/-- Every StatefulSet, Service and Secret has a name that the type of the claim uses. -/
def coveredBy (store : Store) (claim : ResourceClaim) : Bool :=
  [Kind.statefulSet, .service, .secret].all fun kind =>
    (store.table kind).rows.all fun object => (objectsOf claim).contains (kind, object.key)

/-- Under the default policy the Secret of the claim is deleted before the finalizer
goes. -/
theorem policyHonoured_default :
    ∃ claim, (deletedUnder none).find? .resourceClaim heldClaim.key = some claim ∧
      claim.isBeingDeleted = true ∧ hasFinalizer claim = true ∧ IsProvisioned claim ∧
      IsRemoved claim ∧ PolicyHonoured heldClaim.key claim (deletedUnder none) := by
  have present : ((deletedUnder none).find? .resourceClaim heldClaim.key).any (fun claim =>
      isRetired claim && claim.spec.deprovisionPolicy = none &&
        coveredBy (deletedUnder none) claim) = true := by decide +kernel
  obtain ⟨claim, found, checked⟩ := (Option.any_eq_true _ _).mp present
  simp only [Bool.and_eq_true, isRetired_iff, decide_eq_true_eq] at checked
  obtain ⟨⟨⟨deleting, has, provisioned⟩, policy⟩, covered⟩ := checked
  refine ⟨claim, found, deleting, has, provisioned, .inl policy,
    (policyHonoured_iff found deleting provisioned).mpr fun _ => ⟨fun kept => ?_, ?_⟩⟩
  · rcases kept with kept | kept <;> rw [policy] at kept <;> cases kept
  · intro _ kind object owned _
    have listed : kind ∈ [Kind.statefulSet, .service, .secret] := by
      simpa using owned.provisionable
    have names := List.all_eq_true.mp (List.all_eq_true.mp covered kind listed) object
      (Store.mem_of_find? owned.stored)
    exact List.contains_iff_mem.mp names

/-- The Secret of the claim web-cache. -/
def cacheSecret : NamespacedName := ⟨"default", "web-cache-redis-secret"⟩

/-- Under the policy Retain the Secret of the claim is deleted all the same. -/
theorem retained_secret_deleted :
    ∃ claim, (deletedUnder (some .retain)).find? .resourceClaim heldClaim.key = some claim ∧
      claim.isBeingDeleted = true ∧ hasFinalizer claim = true ∧ IsProvisioned claim ∧
      IsKept claim ∧ ¬ PolicyHonoured heldClaim.key claim (deletedUnder (some .retain)) := by
  have present : ((deletedUnder (some .retain)).find? .resourceClaim heldClaim.key).any
      (fun claim => isRetired claim && claim.spec.deprovisionPolicy = some .retain &&
        ((deletedUnder (some .retain)).find? .secret cacheSecret).any fun secret =>
          secret.metadata.ns = claim.metadata.ns &&
            secret.metadata.ownerReferences.contains (controllerReference claim)) = true := by
    decide +kernel
  have lost : ((reconcileClaim (provisionerAt (.ok "c2VjcmV0") 2) heldClaim.key).execute
      serve [] (deletedUnder (some .retain))).2.2.find? .secret cacheSecret = none := by
    decide +kernel
  obtain ⟨claim, found, checked⟩ := (Option.any_eq_true _ _).mp present
  simp only [Bool.and_eq_true, isRetired_iff, decide_eq_true_eq] at checked
  obtain ⟨⟨⟨deleting, has, provisioned⟩, policy⟩, owned⟩ := checked
  obtain ⟨secret, stored, marks⟩ := (Option.any_eq_true _ _).mp owned
  simp only [Bool.and_eq_true, decide_eq_true_eq] at marks
  have named : secret.key = cacheSecret := Store.key_of_find? stored
  refine ⟨claim, found, deleting, has, provisioned, .inl policy, fun honoured => ?_⟩
  have stays := (honoured.retains (.inl policy)).2 _ _ _ _ _
    (runs_execute serve (reconcileClaim (provisionerAt (.ok "c2VjcmV0") 2)
      heldClaim.key) [] (deletedUnder (some .retain))) .secret secret
    ⟨.inr (.inr rfl), named ▸ stored, marks.1, List.contains_iff_mem.mp marks.2⟩
  rw [named, lost] at stays
  cases stays

end ScoreOrchestrator.Provisioner
