/-
Module: Proofs.CreateOrPatch
Purpose: A successful create-or-patch leaves an object that the same desired state
  has nothing to say about any more, in any order of the owned labels and annotations.
-/
import ScoreOrchestrator.Api.MergePatch
import ScoreOrchestrator.Proofs.Footprints

namespace ScoreOrchestrator.Runtime

open Foundation Program

/-! ### Owned labels and annotations -/

theorem get?_mergeOwnedFields (existing desired : GoMap String) (ownedPrefixes : List String)
    (key : String) :
    (mergeOwnedFields existing desired ownedPrefixes).get? key =
      (desired.get? key).or (if isOwnedKey ownedPrefixes key then none else existing.get? key) := by
  unfold mergeOwnedFields
  rw [GoMap.get?_foldl_set, GoMap.get?_ofList_rows, GoMap.get?_foldl_erase]
  congr 1
  by_cases owned : isOwnedKey ownedPrefixes key = true
  · by_cases listed : key ∈ existing.keys
    · simp [owned, listed]
    · have absent : existing.get? key = none := by
        rw [Option.eq_none_iff_forall_ne_some]
        intro value found
        exact listed (List.mem_map.mpr ⟨_, GoMap.get?_eq_some.mp found, rfl⟩)
      simp [listed, absent]
  · simp [owned]

/-- Merging the same fields a second time changes nothing. -/
theorem get?_mergeOwnedFields_merged {existing desired merged : GoMap String}
    {ownedPrefixes : List String}
    (isMerged : ∀ key, merged.get? key = (mergeOwnedFields existing desired ownedPrefixes).get? key)
    (key : String) :
    merged.get? key = (mergeOwnedFields merged desired ownedPrefixes).get? key := by
  rw [get?_mergeOwnedFields, isMerged, get?_mergeOwnedFields]
  cases desired.get? key with
  | some value => rfl
  | none => by_cases owned : isOwnedKey ownedPrefixes key = true <;> simp [owned]

theorem get?_mergeOwnedFields_self (fields : GoMap String) (ownedPrefixes : List String)
    (key : String) : fields.get? key = (mergeOwnedFields fields fields ownedPrefixes).get? key := by
  rw [get?_mergeOwnedFields]
  cases found : fields.get? key with
  | some value => rfl
  | none => simp

/-! ### Settled objects -/

variable {kind : Kind} {noun : String} {specEqual : kind.Spec → kind.Spec → Bool}
  {adopt : kind.Spec → kind.Spec → kind.Spec} {desired : kind.Object}
  {before after : Store} {events : List ApiEvent}

/-- Nothing of the desired object is missing in the stored one. -/
def Settled (kind : Kind) (specEqual : kind.Spec → kind.Spec → Bool)
    (adopt : kind.Spec → kind.Spec → kind.Spec) (desired stored : kind.Object) : Prop :=
  upToDate specEqual stored
    (mergeInto stored desired (adopt stored.spec desired.spec)) = true

theorem settled_iff {stored : kind.Object} :
    Settled kind specEqual adopt desired stored ↔
      specEqual stored.spec (adopt stored.spec desired.spec) = true ∧
      (∀ key, stored.metadata.labels.get? key =
        (mergeOwnedFields stored.metadata.labels desired.metadata.labels
          ["score.dev/", "app.kubernetes.io/"]).get? key) ∧
      ∀ key, stored.metadata.annotations.get? key =
        (mergeOwnedFields stored.metadata.annotations desired.metadata.annotations
          ["score.dev/"]).get? key := by
  simp only [Settled, upToDate, mergeInto, Bool.and_eq_true, GoMap.sameEntries_iff,
    and_assoc]

/-- What a create stores is settled. -/
theorem settled_created {stored : kind.Object}
    (fresh : specEqual desired.spec (adopt desired.spec desired.spec) = true)
    (spec : stored.spec = desired.spec) (labels : stored.metadata.labels = desired.metadata.labels)
    (annotations : stored.metadata.annotations = desired.metadata.annotations) :
    Settled kind specEqual adopt desired stored := by
  rw [settled_iff, spec, labels, annotations]
  exact ⟨fresh, get?_mergeOwnedFields_self _ _, get?_mergeOwnedFields_self _ _⟩

/-- What a patch stores is settled. -/
theorem settled_patched {base stored : kind.Object}
    (merged : specEqual stored.spec (adopt stored.spec desired.spec) = true)
    (patched : Patched base (mergeInto base desired (adopt base.spec desired.spec)) stored) :
    Settled kind specEqual adopt desired stored := by
  rw [settled_iff]
  exact ⟨merged, get?_mergeOwnedFields_merged patched.labels,
    get?_mergeOwnedFields_merged patched.annotations⟩

/-! ### Runs -/

/-- The ways to succeed: the object was created, or the stored one was settled
already, or it was patched. -/
theorem createOrPatch_ok
    (run : (createOrPatch kind noun specEqual adopt desired).Runs apiServer before events
      (.returned (.ok ())) after) :
    (∃ created, apiServer (.create kind desired) before (.ok created) after) ∨
      (∃ base, before.find? kind desired.key = some base ∧
        Settled kind specEqual adopt desired base ∧ after = before) ∨
      ∃ base updated, before.find? kind desired.key = some base ∧
        apiServer (.patch kind base (mergeInto base desired (adopt base.spec desired.spec)))
          before (.ok updated) after := by
  obtain ⟨reply, middle, _, rfl, served, rest⟩ := run.of_call
  simp only [done_bind] at rest
  cases reply with
  | error fault =>
    have unmoved : middle = before := apiServer_of_isRead rfl served
    subst unmoved
    dsimp only at rest
    split at rest
    · cases rest with
      | @call _ _ _ _ _ _ created _ _ creation ending =>
        cases created with
        | ok created =>
          cases ending
          exact .inl ⟨created, creation⟩
        | error fault => cases ending
    · cases rest
  | ok base =>
    obtain ⟨found, rfl⟩ := apiServer_get_ok served
    dsimp only at rest
    split at rest
    next settled =>
      cases rest
      exact .inr (.inl ⟨base, found, settled, rfl⟩)
    · cases rest with
      | @call _ _ _ _ _ _ patched _ _ patching ending =>
        cases patched with
        | ok updated =>
          cases ending
          exact .inr (.inr ⟨base, updated, found, patching⟩)
        | error fault => cases ending

/-- After a successful run the desired object is stored and settled.  Up to the
comparison, the server has to store the spec as it is sent. -/
theorem createOrPatch_settles
    (fresh : specEqual desired.spec (adopt desired.spec desired.spec) = true)
    (merged : ∀ base : kind.Spec, specEqual (mergeSpec kind base (adopt base desired.spec) base)
      (adopt (mergeSpec kind base (adopt base desired.spec) base) desired.spec) = true)
    (run : (createOrPatch kind noun specEqual adopt desired).Runs apiServer before events
      (.returned (.ok ())) after) :
    ∃ stored, after.find? kind desired.key = some stored ∧
      Settled kind specEqual adopt desired stored := by
  rcases createOrPatch_ok run with
    ⟨created, creation⟩ | ⟨base, found, settled, rfl⟩ | ⟨base, updated, found, patching⟩
  · obtain ⟨_, committed⟩ := apiServer_create_ok creation
    have unmarked : (desired.created before.revision).isReleased = false := rfl
    have stored := before.find?_commit_self kind unmarked
    rw [← congrArg Prod.snd committed] at stored
    exact ⟨_, stored, settled_created fresh rfl rfl rfl⟩
  · exact ⟨base, found, settled⟩
  · have keys : base.key = desired.key := Store.key_of_find? found
    have sameKey : (mergeInto base desired (adopt base.spec desired.spec)).key =
        desired.key := keys
    rw [← sameKey] at found
    obtain ⟨stored, stands, patched⟩ := apiServer_patched found rfl patching
    rw [sameKey] at stands
    refine ⟨stored, stands, settled_patched ?_ patched⟩
    rw [patched.spec]
    exact merged base.spec

/-- A run that finds the desired object settled issues no patch. -/
theorem createOrPatch_quiet {stored : kind.Object} {outcome : Outcome (Except GoError Unit)}
    (found : before.find? kind desired.key = some stored)
    (settled : Settled kind specEqual adopt desired stored)
    (run : (createOrPatch kind noun specEqual adopt desired).Runs apiServer before events
      outcome after) : ∀ event ∈ events, event.request.isPatch = false := by
  cases run with
  | interrupted => simp
  | @call _ _ _ _ _ _ reply _ _ served rest =>
    simp only [done_bind] at rest
    intro event member
    rcases List.mem_cons.mp member with rfl | later
    · rfl
    cases reply with
    | error fault =>
      dsimp only at rest
      split at rest
      · cases rest with
        | interrupted => cases later
        | @call _ _ _ _ _ _ created _ _ creation ending =>
          rcases List.mem_cons.mp later with rfl | last
          · rfl
          · cases created <;> cases ending <;> cases last
      · cases rest <;> cases later
    | ok base =>
      obtain ⟨foundBase, rfl⟩ := apiServer_get_ok served
      rw [found] at foundBase
      cases foundBase
      dsimp only at rest
      unfold Settled at settled
      rw [if_pos settled] at rest
      cases rest <;> cases later

/-! ### The objects of a plan -/

/-- The owner reference is all that is added. -/
theorem setControllerReference_ok {Spec Status : Type} {plan : WorkloadPlan}
    {object owned : Resource Spec Status} (set : setControllerReference plan object = .ok owned) :
    owned.spec = object.spec ∧
      owned.metadata =
        { object.metadata with
          ownerReferences :=
            [{ apiVersion := "score.dev/v1b1"
               kind := "WorkloadPlan"
               name := plan.metadata.name
               uid := plan.metadata.uid
               controller := some true
               blockOwnerDeletion := some true }] } := by
  unfold setControllerReference at set
  split at set
  · cases set
  · split at set
    · cases set
    · cases set
      exact ⟨rfl, rfl⟩

/-- A reconcile of the Deployment fails at once, or brings about the desired one. -/
theorem reconcileDeployment_cases (settings : RuntimeSettings) (plan : WorkloadPlan)
    (workload : Workload) :
    (∃ fault, reconcileDeployment settings plan workload = .done (.error fault)) ∨
      ∃ deployment, desiredDeployment settings plan workload = .ok deployment ∧
        reconcileDeployment settings plan workload =
          createOrPatch .deployment "deployment" deploymentSpecEqual
            (fun _ desired => desired) deployment := by
  unfold reconcileDeployment desiredDeployment
  cases buildDeployment settings plan workload with
  | error fault => exact .inl ⟨_, rfl⟩
  | ok built =>
    dsimp only [bind, Except.bind]
    cases setControllerReference plan built with
    | error fault => exact .inl ⟨_, rfl⟩
    | ok deployment => exact .inr ⟨deployment, rfl, rfl⟩

/-- The ports a Workload asks to be served. -/
def exposedPorts (workload : Workload) : List ServicePort :=
  (workload.spec.service.map ServiceSpec.ports).getD []

/-- A reconcile of the Service has nothing to do, or fails at once, or brings about
the Service with the ports of the Workload. -/
theorem reconcileService_cases (plan : WorkloadPlan) (workload : Workload) :
    exposedPorts workload = [] ∧ reconcileService plan workload = .done (.ok ()) ∨
      (∃ fault, reconcileService plan workload = .done (.error fault)) ∨
      ∃ exposed service, exposed.ports = exposedPorts workload ∧
        exposedPorts workload ≠ [] ∧
        setControllerReference plan (buildService plan workload exposed) = .ok service ∧
        reconcileService plan workload =
          createOrPatch .service "service" serviceSpecEqual
            (fun existing desired => { desired with clusterIP := existing.clusterIP })
            service := by
  unfold reconcileService exposedPorts
  cases workload.spec.service with
  | none => exact .inl ⟨rfl, rfl⟩
  | some exposed =>
    by_cases unserved : exposed.ports.length = 0
    · exact .inl ⟨List.eq_nil_of_length_eq_zero unserved, if_pos unserved⟩
    · right
      dsimp only
      rw [if_neg unserved]
      cases owned : setControllerReference plan (buildService plan workload exposed) with
      | error fault => exact .inl ⟨_, rfl⟩
      | ok service =>
        refine .inr ⟨exposed, service, rfl, ?_, owned, rfl⟩
        exact fun none => unserved (congrArg List.length none)

/-! ### Owned fields in any order -/

section

variable {ownedPrefixes : List String} {deleting adding : IterOrder}

/-- The key starts with one of the owned texts. -/
def StartsOwned (ownedPrefixes : List String) (key : String) : Prop :=
  ∃ owned ∈ ownedPrefixes, owned.toList <+: key.toList

theorem isOwnedKey_iff {key : String} :
    isOwnedKey ownedPrefixes key = true ↔ StartsOwned ownedPrefixes key := by
  simp [isOwnedKey, StartsOwned]

/-! ### Deleting while ranging -/

/-- The inner loop deletes the key just if it is owned. -/
theorem deleteOwned_eq (ownedPrefixes : List String) (key : String) (entries : GoMap String) :
    deleteOwned ownedPrefixes key entries =
      if isOwnedKey ownedPrefixes key then entries.erase key else entries := by
  induction ownedPrefixes with
  | nil => rfl
  | cons owned rest ih =>
    unfold deleteOwned
    by_cases starts : owned.toList.isPrefixOf key.toList = true
    · simp [isOwnedKey, starts]
    · rw [if_neg starts, ih]
      simp [isOwnedKey, starts]

/-- One turn of the outer loop. -/
theorem get?_deletingStep (left : GoMap String) (produced key : String) :
    (if (left.get? produced).isSome then deleteOwned ownedPrefixes produced left
      else left).get? key =
      if key = produced ∧ isOwnedKey ownedPrefixes key then none else left.get? key := by
  by_cases here : key = produced
  · subst here
    cases found : left.get? key with
    | none => simp [found]
    | some value =>
      by_cases owned : isOwnedKey ownedPrefixes key = true
      · simp [deleteOwned_eq, owned, GoMap.get?_erase]
      · simp [deleteOwned_eq, owned, found]
  · have other : ¬(key = produced ∧ isOwnedKey ownedPrefixes key = true) := fun both =>
      here both.1
    rw [if_neg other, deleteOwned_eq]
    split
    · split
      · rw [GoMap.get?_erase, if_neg here]
      · rfl
    · rfl

/-- Every turn deletes at most the key it is at, so each owned key has its turn. -/
theorem get?_deletingTurns (rows : List (String × String)) (left : GoMap String) (key : String) :
    (rows.foldl (fun left entry => if (left.get? entry.1).isSome then
      deleteOwned ownedPrefixes entry.1 left else left) left).get? key =
      if key ∈ rows.map Prod.fst ∧ isOwnedKey ownedPrefixes key then none
      else left.get? key := by
  induction rows generalizing left with
  | nil => simp
  | cons row rest ih =>
    rw [List.foldl_cons, ih, get?_deletingStep]
    by_cases owned : isOwnedKey ownedPrefixes key = true
    · by_cases later : key ∈ rest.map Prod.fst
      · simp [owned, List.mem_map.mp later]
      · by_cases here : key = row.1 <;> simp_all
    · simp [owned]

theorem get?_rangeDeleting (existing : GoMap String) (key : String) :
    (rangeDeleting deleting (deleteOwned ownedPrefixes) existing).get? key =
      if isOwnedKey ownedPrefixes key then none else existing.get? key := by
  unfold rangeDeleting
  rw [get?_deletingTurns]
  by_cases owned : isOwnedKey ownedPrefixes key = true
  · cases found : existing.get? key with
    | none => simp [owned]
    | some value =>
      have listed : key ∈ (deleting.range existing).map Prod.fst :=
        List.mem_map.mpr ⟨_, IterOrder.mem_range.mpr (GoMap.get?_eq_some.mp found), rfl⟩
      rw [if_pos ⟨listed, owned⟩, if_pos owned]
  · simp [owned]

/-! ### The merge -/

/-- The loops come to the merge, in any order. -/
theorem get?_mergeOwnedFieldsLoops (existing desired : GoMap String) (key : String) :
    (mergeOwnedFieldsLoops deleting adding existing desired ownedPrefixes).get? key =
      (mergeOwnedFields existing desired ownedPrefixes).get? key := by
  unfold mergeOwnedFieldsLoops
  rw [GoMap.get?_foldl_set, adding.get?_ofList_range, get?_rangeDeleting,
    get?_mergeOwnedFields]

/-- What is expected of a merge of desired fields into existing ones. -/
structure MergesOwned (existing desired : GoMap String) (ownedPrefixes : List String)
    (merged : GoMap String) : Prop where
  desired_ : ∀ key value, desired.get? key = some value → merged.get? key = some value
  /-- No other key starts with an owned text. -/
  replaced : ∀ key, desired.get? key = none → StartsOwned ownedPrefixes key →
    merged.get? key = none
  kept : ∀ key value, desired.get? key = none → ¬StartsOwned ownedPrefixes key →
    existing.get? key = some value → merged.get? key = some value
  /-- There is nothing else. -/
  only : ∀ key value, merged.get? key = some value → desired.get? key = some value ∨
    ¬StartsOwned ownedPrefixes key ∧ existing.get? key = some value

theorem mergesOwned_mergeOwnedFields (existing desired : GoMap String) (ownedPrefixes : List String)
    {merged : GoMap String}
    (same : ∀ key, merged.get? key = (mergeOwnedFields existing desired ownedPrefixes).get? key) :
    MergesOwned existing desired ownedPrefixes merged := by
  have entries : ∀ key, merged.get? key = (desired.get? key).or
      (if isOwnedKey ownedPrefixes key then none else existing.get? key) :=
    fun key => (same key).trans (get?_mergeOwnedFields existing desired ownedPrefixes key)
  constructor
  · intro key value found
    rw [entries, found]
    rfl
  · intro key absent starts
    rw [entries, absent, if_pos (isOwnedKey_iff.mpr starts)]
    rfl
  · intro key value absent foreign found
    rw [entries, absent, if_neg (isOwnedKey_iff.not.mpr foreign), found]
    rfl
  · intro key value found
    rw [entries, Option.or_eq_some_iff] at found
    rcases found with wanted | ⟨_, found⟩
    · exact .inl wanted
    · split at found
      · cases found
      next foreign => exact .inr ⟨isOwnedKey_iff.not.mp foreign, found⟩

/-- Owned fields are replaced and foreign ones kept, for all maps, all owned texts and all
iteration orders, and a second merge of the same desired map changes nothing. -/
theorem mergeOwnedFields_exact (deleting adding deletingAgain addingAgain : IterOrder)
    (existing desired : GoMap String) (ownedPrefixes : List String) :
    MergesOwned existing desired ownedPrefixes
      (mergeOwnedFieldsLoops deleting adding existing desired ownedPrefixes) ∧
    (mergeOwnedFieldsLoops deletingAgain addingAgain
      (mergeOwnedFieldsLoops deleting adding existing desired ownedPrefixes) desired
      ownedPrefixes).sameEntries
      (mergeOwnedFieldsLoops deleting adding existing desired ownedPrefixes) = true := by
  have first : ∀ key,
      (mergeOwnedFieldsLoops deleting adding existing desired ownedPrefixes).get? key =
        (mergeOwnedFields existing desired ownedPrefixes).get? key :=
    get?_mergeOwnedFieldsLoops existing desired
  refine ⟨mergesOwned_mergeOwnedFields existing desired ownedPrefixes first, ?_⟩
  rw [GoMap.sameEntries_iff]
  intro key
  rw [get?_mergeOwnedFieldsLoops]
  exact (get?_mergeOwnedFields_merged first key).symm

end

end ScoreOrchestrator.Runtime
