/-
Module: Proofs.ClaimCleanup
Purpose: What is left of the objects that the provisioner created for a claim when
  it takes its finalizer off, over every interleaving with edits of the claim's type
  and its deletion.
-/
import ScoreOrchestrator.Api.Recording
import ScoreOrchestrator.Proofs.BoundClaims
import ScoreOrchestrator.Proofs.Deprovisioning

namespace ScoreOrchestrator.Provisioner

open Foundation Program

/-!
`Provision` and `Deprovision` both go by the type that the claim has when they are
called.  The version check of the last update makes the second type the one that is
stored when the finalizer goes; nothing relates the first one to it.
-/

/-! ### Vocabulary -/

/-- The stored claim carries the provisioner's finalizer. -/
def Carries (key : NamespacedName) (store : Store) : Prop :=
  store.HasFinalizer .resourceClaim key resourceClaimFinalizer

/-- The claim, while it is stored, has a registered type. -/
def TypeRegistered (key : NamespacedName) (store : Store) : Prop :=
  ∀ claim, store.find? .resourceClaim key = some claim → IsProvisioned claim

/-- An object that some type of the claim would use. -/
def NamedFor (key : NamespacedName) (target : Kind × NamespacedName) : Prop :=
  ∃ claim : ResourceClaim, claim.key = key ∧ target ∈ objectsOf claim

/-- What is stored under a key has no finalizers. -/
def Bare (store : Store) (target : Kind × NamespacedName) : Prop :=
  ∀ object, store.find? target.1 target.2 = some object →
    object.metadata.finalizers = []

/-- What users, the orchestrator and the cluster do: the claim may be edited, marked
for deletion and, without the finalizer, removed; its type stays a registered one.
Under the names of the claim's objects nothing is created, unmarked or given
finalizers. -/
structure OthersAct (key : NamespacedName) (before after : Store) : Prop where
  claims : before.Evolves .resourceClaim after
  finalizer : Carries key before → Carries key after
  registered : TypeRegistered key before → TypeRegistered key after
  objects : ∀ target, NamedFor key target → ∀ object,
    after.find? target.1 target.2 = some object →
      ∃ old, before.find? target.1 target.2 = some old ∧
        (old.isBeingDeleted = true → object.isBeingDeleted = true) ∧
        (old.metadata.finalizers = [] → object.metadata.finalizers = [])

theorem OthersAct.refl (key : NamespacedName) (store : Store) : OthersAct key store store :=
  ⟨.refl _ store, id, id, fun _ _ object found => ⟨object, found, id, id⟩⟩

theorem OthersAct.trans {key : NamespacedName} {first second third : Store}
    (one : OthersAct key first second) (two : OthersAct key second third) :
    OthersAct key first third where
  claims := one.claims.trans two.claims
  finalizer := two.finalizer ∘ one.finalizer
  registered := two.registered ∘ one.registered
  objects target named object found := by
    obtain ⟨middle, foundMiddle, marked, plain⟩ := two.objects target named object found
    obtain ⟨old, foundOld, markedOld, plainOld⟩ := one.objects target named middle foundMiddle
    exact ⟨old, foundOld, marked ∘ markedOld, plain ∘ plainOld⟩

/-- The store, with the objects that the provisioner has created. -/
abbrev CreationLog := Recorded (Kind × NamespacedName)

/-- A successful create is recorded. -/
def recordCreated : Recorder (Kind × NamespacedName) := fun _ request reply _ =>
  match request, reply with
  | .create kind object, .ok _ => some (kind, object.key)
  | _, _ => none

/-- One worker that reconciles one claim again and again.  Any of its calls may fail;
a delete is not answered with NotFound while the object is there. -/
def cleanupRules (key : NamespacedName) : Rules Unit Call GoError CreationLog where
  service _ := recordingServer recordCreated
  starts _ program :=
    ∃ random now, program = (reconcileClaim (provisionerAt random now) key).discard
  admits _ _ event := DeletesTruthfully (event.map Recorded.store)
  environment before after := OthersAct key before.store after.store ∧ after.log = before.log

/-- The start of a run: nothing created yet, the claim of a registered type. -/
def NothingCreated (key : NamespacedName) (state : CreationLog) : Prop :=
  state.log = [] ∧ TypeRegistered key state.store

/-- What each exchange must satisfy: an object is looked at, created or deleted only
under the finalizer, and when the finalizer goes, the objects of the type that the
claim then has are deleted. -/
structure CleansUp (key : NamespacedName) (event : EventOn CreationLog) : Prop where
  provisions : event.request.kind ≠ .resourceClaim → Carries key event.before.store
  releases : Carries key event.before.store → ¬ Carries key event.after.store →
    ∀ claim, event.before.store.find? .resourceClaim key = some claim →
      ∀ target ∈ objectsOf claim, Deleted event.after.store target

/-- What holds between any two exchanges. -/
structure Accounted (key : NamespacedName) (state : CreationLog) : Prop where
  registered : TypeRegistered key state.store
  created : ∀ target ∈ state.log, NamedFor key target ∧ Bare state.store target

/-- The terms of the worker. -/
def cleanupContract (key : NamespacedName) : Contract Call GoError CreationLog where
  service := recordingServer recordCreated
  rely before after := OthersAct key before.store after.store ∧ after.log = before.log
  rely_refl state := ⟨.refl key state.store, rfl⟩
  rely_trans one two := ⟨one.1.trans two.1, two.2.trans one.2⟩
  admits _ event := DeletesTruthfully (event.map Recorded.store)
  guarantee _ event := CleansUp key event ∧
    (Accounted key event.before → Accounted key event.after)

theorem NamedFor.ne_resourceClaim {key : NamespacedName} {target : Kind × NamespacedName}
    (named : NamedFor key target) : target.1 ≠ .resourceClaim := by
  obtain ⟨claim, _, member⟩ := named
  exact ne_resourceClaim_of_mem_objectsOf member

theorem Accounted.act {key : NamespacedName} {before after : CreationLog}
    (accounted : Accounted key before) (acted : OthersAct key before.store after.store)
    (log : after.log = before.log) : Accounted key after where
  registered := acted.registered accounted.registered
  created target logged := by
    rw [log] at logged
    obtain ⟨named, bare⟩ := accounted.created target logged
    refine ⟨named, fun object found => ?_⟩
    obtain ⟨old, foundOld, _, plain⟩ := acted.objects target named object found
    exact plain (bare old foundOld)

/-! ### Exchanges about the claim -/

section

variable {key : NamespacedName} {claim sent : ResourceClaim} {before after : Store}
  {reply : Except GoError ResourceClaim}

/-- An update of the version that was read leaves the type as it is. -/
theorem TypeRegistered.update (registered : TypeRegistered key before)
    (knows : before.Knows .resourceClaim claim) (keys : sent.key = claim.key)
    (versions : sent.metadata.resourceVersion = claim.metadata.resourceVersion)
    (specs : sent.spec = claim.spec)
    (served : apiServer (.update .resourceClaim sent) before reply after) :
    TypeRegistered key after := by
  intro object found
  have named := Store.key_of_find? found
  rcases (apiServer_step served).of_find? found with old | ⟨_, ⟨stored, present, version, rfl⟩, rfl⟩
  · exact registered object old
  · obtain ⟨storedMember, storedKey⟩ := Store.find?_eq_some.mp present
    have same : stored = claim := knows.same stored storedMember (storedKey.trans keys)
      (version.symm.trans versions)
    subst same
    have known := registered stored (Store.find?_eq_some.mpr ⟨storedMember, named⟩)
    unfold IsProvisioned at known ⊢
    rw [← specs] at known
    exact known

theorem TypeRegistered.updateStatus (registered : TypeRegistered key before)
    (served : apiServer (.updateStatus .resourceClaim sent) before reply after) :
    TypeRegistered key after := by
  intro object found
  rcases (apiServer_step served).of_find? found with old | ⟨_, ⟨stored, present, _, rfl⟩, rfl⟩
  · exact registered object old
  · have named := Store.key_of_find? found
    exact registered stored (Store.find?_eq_some.mpr ⟨Store.mem_of_find? present, named⟩)

end

section

variable {key : NamespacedName} {answer : Type} {request : Call answer}
  {before after : CreationLog} {reply : Except GoError answer}

/-- A write of a claim leaves the account of the other objects alone. -/
theorem Accounted.of_claim_call (accounted : Accounted key before)
    (served : apiServer request before.store reply after.store) (log : after.log = before.log)
    (about : request.kind = .resourceClaim) (registered : TypeRegistered key after.store) :
    Accounted key after where
  registered := registered
  created target logged := by
    rw [log] at logged
    obtain ⟨named, bare⟩ := accounted.created target logged
    refine ⟨named, fun object found => bare object ?_⟩
    have other : target.1 ≠ request.kind := about ▸ named.ne_resourceClaim
    rw [Store.find?, ← apiServer_table_of_leaves (.inr other) served]
    exact found

/-- An exchange that keeps the finalizer. -/
theorem CleansUp.of_carries (about : request.kind ≠ .resourceClaim → Carries key before.store)
    (kept : Carries key before.store → Carries key after.store) :
    CleansUp key { request, reply, before, after } :=
  ⟨about, fun carries gone => absurd (kept carries) gone⟩

/-- Reading changes nothing. -/
theorem guarantee_of_isRead (key : NamespacedName) (reads : request.isRead)
    (about : request.kind ≠ .resourceClaim → Carries key before.store)
    (served : recordingServer recordCreated request before reply after) :
    after = before ∧ CleansUp key { request, reply, before, after } := by
  have store := apiServer_of_isRead reads served.1
  have log : after.log = before.log := by
    rw [served.2]
    cases request with
    | get | list => rfl
    | _ => cases reads
  have same : after = before := by
    cases after
    cases before
    simp only at store log
    rw [store, log]
  subst same
  exact ⟨rfl, .of_carries about id⟩

end

/-! ### What others do -/

section

variable {key : NamespacedName} {before after : Store}

/-- A write of a claim that keeps its finalizer and leaves it a registered type. -/
theorem OthersAct.of_claim_call {answer : Type} {request : Call answer}
    {reply : Except GoError answer} (served : apiServer request before reply after)
    (about : request.kind = .resourceClaim) (finalizer : Carries key before → Carries key after)
    (registered : TypeRegistered key before → TypeRegistered key after) :
    OthersAct key before after where
  claims := apiServer_evolves _ served
  finalizer := finalizer
  registered := registered
  objects target named object found := by
    have other : target.1 ≠ request.kind := about ▸ named.ne_resourceClaim
    rw [Store.find?, apiServer_table_of_leaves (.inr other) served] at found
    exact ⟨object, found, id, id⟩

/-- A user or the orchestrator edits the claim and leaves it a registered type. -/
theorem othersAct_edit {claim sent : ResourceClaim} {reply : Except GoError ResourceClaim}
    (found : before.find? .resourceClaim key = some claim) (keys : sent.key = key)
    (finalizers : sent.metadata.finalizers = claim.metadata.finalizers)
    (provisioned : IsProvisioned sent)
    (served : apiServer (.update .resourceClaim sent) before reply after) :
    OthersAct key before after := by
  refine .of_claim_call served rfl ?_ ?_
  · intro carries
    cases reply with
    | error fault =>
      rw [apiServer_of_error served]
      exact carries
    | ok updated =>
      obtain ⟨stored, present, has⟩ := carries
      obtain rfl := Option.some.inj (found.symm.trans present)
      exact .of_update keys (finalizers ▸ has) served
  · intro registered object present
    rcases (apiServer_step served).of_find? present with old | ⟨_, ⟨_, _, _, rfl⟩, rfl⟩
    · exact registered object old
    · exact provisioned

/-- Somebody asks for the deletion of the claim. -/
theorem othersAct_deleteRequest {reply : Except GoError Unit}
    (served : apiServer (.delete .resourceClaim key) before reply after) :
    OthersAct key before after := by
  refine .of_claim_call served rfl (fun carries => carries.delete served) ?_
  intro registered object present
  rcases (apiServer_step served).of_find? present with old | ⟨_, ⟨stored, found, rfl⟩, rfl⟩
  · exact registered object old
  · have known := registered stored found
    simpa [IsProvisioned, Store.stamp] using known

end

/-! ### Exchanges about the objects -/

section

variable {key : NamespacedName} {answer : Type} {request : Call answer}
  {before after : CreationLog} {reply : Except GoError answer}

/-- An exchange about another kind of object leaves the claim as it is. -/
theorem guarantee_of_object (leaves : .resourceClaim ≠ request.kind)
    (carries : Carries key before.store)
    (served : recordingServer recordCreated request before reply after)
    (created : Accounted key before →
      ∀ target ∈ after.log, NamedFor key target ∧ Bare after.store target) :
    (CleansUp key { request, reply, before, after } ∧
      (Accounted key before → Accounted key after)) ∧ Carries key after.store := by
  have claims : after.store.table .resourceClaim = before.store.table .resourceClaim :=
    apiServer_table_of_leaves (.inr leaves) served.1
  have kept : Carries key after.store := Store.HasFinalizer.of_table carries claims
  refine ⟨⟨.of_carries (fun _ => carries) fun _ => kept, fun accounted => ?_⟩, kept⟩
  refine ⟨fun stored found => accounted.registered stored ?_, created accounted⟩
  rw [Store.find?, ← claims]
  exact found

/-- Only the object that a call aims at can get finalizers from it. -/
theorem Bare.step {before after : Store} {target aimed : Kind × NamespacedName}
    (bare : Bare before target) (aims : request.target = some aimed)
    (served : apiServer request before reply after) (written : target = aimed → Bare after target) :
    Bare after target := by
  by_cases same : target = aimed
  · exact written same
  · intro object found
    apply bare object
    rw [← apiServer_find?_of_target_ne _ served]
    · exact found
    · rw [aims]
      exact fun equal => same (Option.some.inj equal).symm

end

section

variable {key : NamespacedName} {claim : ResourceClaim} (claimKey : claim.key = key)
  {kind : Kind} {before after : CreationLog}
include claimKey

theorem guarantee_of_create {object : kind.Object} {reply : Except GoError kind.Object}
    (member : (kind, object.key) ∈ objectsOf claim) (plain : object.metadata.finalizers = [])
    (carries : Carries key before.store)
    (served : recordingServer recordCreated (.create kind object) before reply after) :
    (CleansUp key { request := .create kind object, reply, before, after } ∧
      (Accounted key before → Accounted key after)) ∧ Carries key after.store := by
  have named : NamedFor key (kind, object.key) := ⟨claim, claimKey, member⟩
  refine guarantee_of_object named.ne_resourceClaim.symm carries served ?_
  intro accounted target logged
  have bare : ∀ target, Bare before.store target → Bare after.store target := by
    intro target bare
    refine bare.step rfl served.1 fun same stored found => ?_
    subst same
    rcases (apiServer_step served.1).of_find? found with old | ⟨_, ⟨_, rfl⟩, rfl⟩
    · exact bare stored old
    · exact plain
  rw [served.2] at logged
  rcases List.mem_append.mp logged with fresh | old
  · cases reply with
    | error fault => cases fresh
    | ok created =>
      obtain rfl := List.mem_singleton.mp fresh
      refine ⟨named, bare _ fun stored found => ?_⟩
      obtain ⟨absent, _⟩ := apiServer_create_ok served.1
      rw [absent] at found
      cases found
  · obtain ⟨namedOld, bareOld⟩ := accounted.created target old
    exact ⟨namedOld, bare target bareOld⟩

theorem guarantee_of_delete {objectKey : NamespacedName} {reply : Except GoError Unit}
    (member : (kind, objectKey) ∈ objectsOf claim) (carries : Carries key before.store)
    (served : recordingServer recordCreated (.delete kind objectKey) before reply after) :
    (CleansUp key { request := .delete kind objectKey, reply, before, after } ∧
      (Accounted key before → Accounted key after)) ∧ Carries key after.store := by
  have named : NamedFor key (kind, objectKey) := ⟨claim, claimKey, member⟩
  refine guarantee_of_object named.ne_resourceClaim.symm carries served ?_
  intro accounted target logged
  rw [served.2] at logged
  obtain ⟨namedOld, bare⟩ := accounted.created target logged
  refine ⟨namedOld, bare.step rfl served.1 fun same object found => ?_⟩
  subst same
  rcases (apiServer_step served.1).of_find? found with old | ⟨_, ⟨stored, present, rfl⟩, rfl⟩
  · exact bare object old
  · have plain := bare stored present
    simpa [Store.stamp] using plain

/-- The terms on which the objects of a claim that was read are deleted. -/
theorem cleanupTerms : CleanupTerms Recorded.store (cleanupContract key) (objectsOf claim)
    fun state => Carries key state.store ∧ state.store.Knows .resourceClaim claim where
  serves served := served.1
  stable moved held := ⟨moved.1.finalizer held.1, held.2.of_evolves moved.1.claims⟩
  keeps moved target member deleted object found := by
    obtain ⟨old, foundOld, marked, _⟩ :=
      moved.1.objects target ⟨claim, claimKey, member⟩ object found
    exact marked (deleted old foundOld)
  truthful admitted := admitted
  promise member held served := by
    obtain ⟨kept, carries⟩ := guarantee_of_delete claimKey member held.1 served
    exact ⟨kept, carries, held.2.of_evolves (apiServer_evolves _ served.1)⟩

end

/-! ### One reconcile -/

/-- A call that looks for one of the objects of a claim or creates it bare. -/
def ProvisionsFor (claim : ResourceClaim) ⦃answer : Type⦄ : Call answer → Prop
  | .get kind key => (kind, key) ∈ objectsOf claim
  | .create kind object => (kind, object.key) ∈ objectsOf claim ∧ object.metadata.finalizers = []
  | _ => False

theorem handleProvisioning_provisionsFor (random : RandomText) (now : Time)
    (claim : ResourceClaim) :
    (handleProvisioning (provisionerAt random now) claim).Makes (ProvisionsFor claim) :=
  handleProvisioning_makes fun _ selected =>
    strategyOf_makes selected ⟨id, fun member plain => ⟨member, plain⟩⟩

section

variable {key : NamespacedName} {claim : ResourceClaim}
  {history : List (EventOn CreationLog)} {state : CreationLog}
  (random : RandomText) (now : Time)

/-- A status update keeps the finalizer and the type. -/
theorem guarantee_of_updateStatus {sent : ResourceClaim} {before after : CreationLog}
    {reply : Except GoError ResourceClaim}
    (served : recordingServer recordCreated (.updateStatus .resourceClaim sent) before
      reply after) :
    CleansUp key { request := .updateStatus .resourceClaim sent, reply, before, after } ∧
      (Accounted key before → Accounted key after) := by
  refine ⟨.of_carries (absurd rfl) fun carries => carries.updateStatus served.1, ?_⟩
  intro accounted
  exact accounted.of_claim_call served.1 served.2 rfl
    (accounted.registered.updateStatus served.1)

/-- While the finalizer is there, the claim is provisioned and its status written. -/
theorem provisionClaim_cleansUp (claimKey : claim.key = key) (carries : Carries key state.store) :
    Safe (cleanupContract key) (fun _ _ _ => True)
      (provisionClaim (provisionerAt random now) claim) history state := by
  apply Safe.bind
  refine (Safe.of_makes_while (fun state => Carries key state.store) ?_
    (handleProvisioning_provisionsFor random now claim) carries ?_).mono ?_
  · exact fun moved held => moved.1.finalizer held
  · intro answer request provisions history before reply after held served _
    cases request with
    | get kind objectKey =>
      obtain ⟨same, kept⟩ := guarantee_of_isRead key rfl (fun _ => held) served
      subst same
      exact ⟨⟨kept, id⟩, held⟩
    | create kind object => exact guarantee_of_create claimKey provisions.1 provisions.2 held served
    | _ => cases provisions
  · intro handled history state _ before _ reply after served _
    refine ⟨guarantee_of_updateStatus served, ?_⟩
    cases reply <;> exact fun _ _ => trivial

/-- A claim without the finalizer gets it before anything else. -/
theorem initializeClaim_cleansUp (claimKey : claim.key = key)
    (knows : state.store.Knows .resourceClaim claim) :
    Safe (cleanupContract key) (fun _ _ _ => True)
      (initializeClaim (provisionerAt random now) claim) history state := by
  intro before moved reply after served _
  have still := knows.of_evolves moved.1.claims
  have unchanged : (addFinalizer claim).key = claim.key ∧
      (addFinalizer claim).metadata.resourceVersion = claim.metadata.resourceVersion ∧
      (addFinalizer claim).spec = claim.spec := by
    unfold addFinalizer
    split <;> exact ⟨rfl, rfl, rfl⟩
  have accounts : Accounted key before → Accounted key after := fun accounted =>
    accounted.of_claim_call served.1 served.2 rfl
      (accounted.registered.update still unchanged.1 unchanged.2.1 unchanged.2.2 served.1)
  cases reply with
  | error fault =>
    have same := apiServer_of_error served.1
    exact ⟨⟨.of_carries (absurd rfl) fun carries => same ▸ carries, accounts⟩,
      fun _ _ => trivial⟩
  | ok updated =>
    have has : resourceClaimFinalizer ∈ (addFinalizer claim).metadata.finalizers := by
      unfold addFinalizer
      split
      next present => simpa [hasFinalizer] using present
      · simp
    have carries : Carries key after.store := .of_update (unchanged.1.trans claimKey) has served.1
    refine ⟨⟨.of_carries (absurd rfl) fun _ => carries, accounts⟩, ?_⟩
    intro before _ reply after served _
    refine ⟨guarantee_of_updateStatus served, ?_⟩
    cases reply <;> exact fun _ _ => trivial

/-- The finalizer goes after the objects of the type that was read, and only if that
is the stored type. -/
theorem releaseClaim_cleansUp (claimKey : claim.key = key)
    (knows : state.store.Knows .resourceClaim claim)
    (deleted : ∀ target ∈ objectsOf claim, Deleted state.store target) :
    Safe (cleanupContract key) (fun _ _ _ => True) (releaseClaim claim) history
      state := by
  intro before moved reply after served _
  have still := knows.of_evolves moved.1.claims
  have accounts : Accounted key before → Accounted key after := fun accounted =>
    accounted.of_claim_call served.1 served.2 rfl
      (accounted.registered.update still
        (show (removeFinalizer claim).key = claim.key from rfl) rfl rfl served.1)
  refine ⟨⟨⟨absurd rfl, ?_⟩, accounts⟩, ?_⟩
  · intro carries gone stored found target member object present
    cases reply with
    | error fault =>
      rw [apiServer_of_error served.1] at gone
      exact absurd carries gone
    | ok updated =>
      obtain ⟨current, foundCurrent, version, _⟩ := apiServer_update_ok served.1
      have same : stored = claim := by
        have there : before.store.find? .resourceClaim key = some current := by
          rw [← claimKey]
          exact foundCurrent
        obtain rfl := Option.some.inj (there.symm.trans found)
        obtain ⟨stands, keys⟩ := Store.find?_eq_some.mp found
        exact still.same current stands (keys.trans claimKey.symm) version.symm
      subst same
      have named : NamedFor key target := ⟨stored, claimKey, member⟩
      have others : after.store.table target.1 = before.store.table target.1 :=
        apiServer_table_of_leaves (by exact .inr named.ne_resourceClaim) served.1
      rw [Store.find?, others] at present
      obtain ⟨old, foundOld, marked, _⟩ := moved.1.objects target named object present
      exact marked (deleted target member old foundOld)
  · cases reply <;> exact fun _ _ => trivial

theorem handleDeletion_cleansUp (claimKey : claim.key = key) (provisioned : IsProvisioned claim)
    (found : state.store.find? .resourceClaim key = some claim) :
    Safe (cleanupContract key) (fun _ _ _ => True)
      (handleDeletion (provisionerAt random now) claim) history state := by
  unfold handleDeletion
  split
  next has =>
    obtain ⟨strategy, selected, registered⟩ := exists_registered provisioned random now
    rw [registered]
    have carries : Carries key state.store := ⟨claim, found, by simpa [hasFinalizer] using has⟩
    have knows : state.store.Knows .resourceClaim claim := .of_mem (Store.mem_of_find? found)
    apply Safe.bind
    refine (deprovision_safe selected (cleanupTerms claimKey) ⟨carries, knows⟩).mono ?_
    rintro (fault | _) history later ⟨held, deleted⟩
    · exact fun _ _ => trivial
    · exact releaseClaim_cleansUp claimKey held.2 (deleted rfl)
  · exact fun _ _ => trivial

theorem reconcileClaim_cleansUp (accounted : Accounted key state) :
    Safe (cleanupContract key) (fun _ _ _ => True)
      (reconcileClaim (provisionerAt random now) key) history state := by
  intro before moved reply after served _
  obtain ⟨same, kept⟩ := guarantee_of_isRead key rfl (absurd rfl) served
  subst same
  refine ⟨⟨kept, id⟩, ?_⟩
  have still := accounted.act moved.1 moved.2
  simp only [done_bind]
  cases reply with
  | error fault =>
    dsimp only
    split <;> exact fun _ _ => trivial
  | ok claim =>
    obtain ⟨found, _⟩ := apiServer_get_ok served.1
    obtain ⟨member, claimKey⟩ := Store.find?_eq_some.mp found
    dsimp only
    split
    · split
      · exact handleDeletion_cleansUp random now claimKey (still.registered claim found) found
      · split
        next has =>
          exact provisionClaim_cleansUp random now claimKey
            ⟨claim, found, by simpa [hasFinalizer] using has⟩
        · exact initializeClaim_cleansUp random now claimKey (.of_mem member)
    · exact fun _ _ => trivial

end

/-! ### Every interleaving -/

def cleanupVerified (key : NamespacedName) :
    Verified (cleanupRules key) (NothingCreated key) where
  invariant := Accounted key
  rely _ := (cleanupContract key).rely
  rely_refl _ := (cleanupContract key).rely_refl
  rely_trans _ _ _ _ := (cleanupContract key).rely_trans
  guarantee _ := (cleanupContract key).guarantee
  invariant_initial starts := ⟨starts.2, by simp [starts.1]⟩
  invariant_environment accounted moved := accounted.act moved.1 moved.2
  invariant_exchange accounted kept := kept.2 accounted
  rely_environment _ moved := moved
  rely_exchange apart := absurd rfl apart
  safe {_ program state} starts accounted := by
    obtain ⟨random, now, rfl⟩ := starts
    exact (reconcileClaim_cleansUp random now accounted).discard

/-- Cleanup before release: over every run of reconciles of one claim, whatever calls
fail and whatever registered types the claim goes through, the provisioner works on
objects only under its finalizer; and when the finalizer goes, every object that the
run created is gone, if it is one of those of the type that the claim has then. -/
theorem released_claim_cleaned {key : NamespacedName}
    {system next : System Unit Call GoError CreationLog} {history : List (EventOn CreationLog)}
    {event : EventOn CreationLog}
    (reached : Reachable (cleanupRules key) (NothingCreated key) system)
    (moved : System.Step (cleanupRules key) system (.exchange () history event) next) :
    (event.request.kind ≠ .resourceClaim → Carries key event.before.store) ∧
      (Carries key event.before.store → ¬ Carries key event.after.store →
        ∀ claim, event.before.store.find? .resourceClaim key = some claim →
          (∀ target ∈ event.after.log, target ∈ objectsOf claim) →
            ∀ target ∈ event.after.log, event.after.store.find? target.1 target.2 = none) := by
  have kept := ((cleanupVerified key).guarantee_of_reachable reached moved).1
  refine ⟨kept.provisions, fun carries gone claim found covered target logged => ?_⟩
  have accounted := ((cleanupVerified key).holds_of_reachable (reached.step moved)).invariant
  cases moved with
  | exchange =>
    apply (kept.releases carries gone claim found target (covered target logged)).find?_eq_none
    exact (accounted.created target logged).2

/-! ### A claim that is deleted -/

/-- A reconcile of the claim web-cache. -/
def heldReconcile : Client Unit :=
  (reconcileClaim (provisionerAt (.ok "c2VjcmV0") 2) heldClaim.key).discard

/-- The cluster after the first reconcile. -/
@[irreducible] def provisionedLog : CreationLog :=
  afterRecorded recordCreated heldReconcile { store := heldStore, log := [] }

/-- The cluster after somebody has asked for the deletion of the claim. -/
@[irreducible] def afterDeleteRequest (state : CreationLog) : CreationLog :=
  { state with store := (serve (.delete .resourceClaim heldClaim.key) state.store).2 }

/-- The cluster after the type of the claim has changed. -/
def retype (type : String) (state : CreationLog) : CreationLog :=
  { state with store := afterRetyping type state.store }

@[irreducible] def heldEvents (state : CreationLog) : List (EventOn CreationLog) :=
  recordedRun recordCreated heldReconcile state

/-- An exchange that takes the finalizer off the claim. -/
def takesFinalizer (event : EventOn CreationLog) : Bool :=
  (event.before.store.find? .resourceClaim heldClaim.key).any hasFinalizer &&
    !(event.after.store.find? .resourceClaim heldClaim.key).any hasFinalizer

theorem carries_iff {key : NamespacedName} {store : Store} :
    Carries key store ↔ (store.find? .resourceClaim key).any hasFinalizer = true := by
  simp [Carries, Store.HasFinalizer, Option.any_eq_true, hasFinalizer]

theorem heldEvents_admitted (state : CreationLog) :
    Admitted (cleanupRules heldClaim.key) () [] (heldEvents state) := by
  refine .of_mem (fun event member history => ?_) []
  unfold heldEvents recordedRun at member
  have plain := List.mem_map_of_mem (f := Event.map Recorded.store) member
  rw [map_store_recordEvents] at plain
  exact deletesTruthfully_of_healthyServer
    (runs_execute_reliable serve heldReconcile state.store) _ plain

section

variable {state : CreationLog}
  (reached : Reachable (cleanupRules heldClaim.key) (NothingCreated heldClaim.key)
    { state, thread := fun _ => none })
include reached

theorem reachable_afterDeleteRequest :
    Reachable (cleanupRules heldClaim.key) (NothingCreated heldClaim.key)
      { state := afterDeleteRequest state, thread := fun _ => none } := by
  apply reached.step (.environment _)
  unfold afterDeleteRequest
  exact ⟨othersAct_deleteRequest (.inl rfl), rfl⟩

theorem reachable_retype {type : String}
    (registered : type = "postgres" ∨ type = "redis" ∨ type = "secret") :
    Reachable (cleanupRules heldClaim.key) (NothingCreated heldClaim.key)
      { state := retype type state, thread := fun _ => none } := by
  apply reached.step (.environment _)
  refine ⟨?_, rfl⟩
  unfold retype afterRetyping
  split
  · exact .refl _ _
  next claim found =>
    let edited : ResourceClaim := { claim with spec := { claim.spec with type } }
    have served : apiServer (.update .resourceClaim edited) state.store
        (serve (.update .resourceClaim edited) state.store).1
        (serve (.update .resourceClaim edited) state.store).2 := .inl rfl
    have named : edited.key = heldClaim.key := Store.key_of_find? found
    exact othersAct_edit found named rfl registered served

/-- A reconcile that takes the finalizer off is part of a run. -/
theorem exists_release (takes : (heldEvents state).any takesFinalizer = true) :
    ∃ history event, ∃ system next : System Unit Call GoError CreationLog,
      event ∈ heldEvents state ∧
      Reachable (cleanupRules heldClaim.key) (NothingCreated heldClaim.key) system ∧
      System.Step (cleanupRules heldClaim.key) system (.exchange () history event) next ∧
      Carries heldClaim.key event.before.store ∧
      ¬ Carries heldClaim.key event.after.store := by
  obtain ⟨event, member, taken⟩ := List.any_eq_true.mp takes
  have admitted := heldEvents_admitted state
  unfold heldEvents at admitted member
  obtain ⟨history, system, next, _, there, step⟩ :=
    reached.exists_exchange_of_mem () rfl ⟨.ok "c2VjcmV0", 2, rfl⟩
      (runs_afterRecorded recordCreated heldReconcile state) admitted member
  simp only [takesFinalizer, Bool.and_eq_true, Bool.not_eq_true'] at taken
  refine ⟨history, event, system, next, ?_, there, step, carries_iff.mpr taken.1, ?_⟩
  · unfold heldEvents
    exact member
  · rw [carries_iff, taken.2]
    exact Bool.false_ne_true

end

theorem reachable_provisionedLog :
    Reachable (cleanupRules heldClaim.key) (NothingCreated heldClaim.key)
      { state := provisionedLog, thread := fun _ => none } := by
  have registered : TypeRegistered heldClaim.key heldStore := by
    have known : (heldStore.find? .resourceClaim heldClaim.key).all isHandled = true := by
      decide +kernel
    intro claim found
    rw [found] at known
    exact (isHandled_iff.mp known).2.2
  have initial : Reachable (cleanupRules heldClaim.key) (NothingCreated heldClaim.key)
      { state := { store := heldStore, log := [] }, thread := fun _ => none } :=
    .initial ⟨rfl, registered⟩
  have admitted := heldEvents_admitted { store := heldStore, log := [] }
  unfold heldEvents at admitted
  unfold provisionedLog
  exact initial.run () rfl ⟨.ok "c2VjcmV0", 2, rfl⟩
    (runs_afterRecorded recordCreated heldReconcile _) admitted

/-- Every object that was created is one of the type that the claim now has. -/
def coversLog (event : EventOn CreationLog) : Bool :=
  (event.before.store.find? .resourceClaim heldClaim.key).any fun claim =>
    event.after.log.all fun target => (objectsOf claim).contains target

/-- A claim that keeps its type: its Secret is gone when the finalizer goes. -/
theorem released_claim_cleaned_held :
    ∃ history event, ∃ system next : System Unit Call GoError CreationLog,
      Reachable (cleanupRules heldClaim.key) (NothingCreated heldClaim.key) system ∧
      System.Step (cleanupRules heldClaim.key) system (.exchange () history event) next ∧
      Carries heldClaim.key event.before.store ∧
      ¬ Carries heldClaim.key event.after.store ∧
      (.secret, ⟨"default", "web-cache-redis-secret"⟩) ∈ event.after.log ∧
      ∀ target ∈ event.after.log,
        event.after.store.find? target.1 target.2 = none := by
  have takes : (heldEvents (afterDeleteRequest provisionedLog)).any takesFinalizer = true := by
    decide +kernel
  have covered : (heldEvents (afterDeleteRequest provisionedLog)).all coversLog = true := by
    decide +kernel
  have logged : (heldEvents (afterDeleteRequest provisionedLog)).all (fun event =>
      event.after.log.contains
        (.secret, ⟨"default", "web-cache-redis-secret"⟩)) = true := by
    decide +kernel
  obtain ⟨history, event, system, next, member, there, step, carries, gone⟩ :=
    exists_release (reachable_afterDeleteRequest reachable_provisionedLog) takes
  obtain ⟨claim, found, covers⟩ :=
    (Option.any_eq_true _ _).mp (List.all_eq_true.mp covered event member)
  refine ⟨history, event, system, next, there, step, carries, gone, ?_, ?_⟩
  · exact List.contains_iff_mem.mp (List.all_eq_true.mp logged event member)
  · refine (released_claim_cleaned there step).2 carries gone claim found fun target listed => ?_
    exact List.contains_iff_mem.mp (List.all_eq_true.mp covers target listed)

/-- A claim that is edited from redis to secret and then deleted: its finalizer goes
while the Secret that was created for it as a redis claim is still there. -/
theorem retyped_claim_leaves_secret :
    ∃ history event, ∃ system next : System Unit Call GoError CreationLog,
      Reachable (cleanupRules heldClaim.key) (NothingCreated heldClaim.key) system ∧
      System.Step (cleanupRules heldClaim.key) system (.exchange () history event) next ∧
      Carries heldClaim.key event.before.store ∧
      ¬ Carries heldClaim.key event.after.store ∧
      (.secret, ⟨"default", "web-cache-redis-secret"⟩) ∈ event.after.log ∧
      (event.after.store.find? .secret
        ⟨"default", "web-cache-redis-secret"⟩).isSome = true := by
  have takes : (heldEvents (afterDeleteRequest (retype "secret" provisionedLog))).any
      takesFinalizer = true := by decide +kernel
  have left : (heldEvents (afterDeleteRequest (retype "secret" provisionedLog))).all
      (fun event =>
        event.after.log.contains
          (.secret, ⟨"default", "web-cache-redis-secret"⟩) &&
        (event.after.store.find? .secret
          ⟨"default", "web-cache-redis-secret"⟩).isSome) = true := by
    decide +kernel
  obtain ⟨history, event, system, next, member, there, step, carries, gone⟩ :=
    exists_release (reachable_afterDeleteRequest
      (reachable_retype reachable_provisionedLog (.inr (.inr rfl)))) takes
  have both := List.all_eq_true.mp left event member
  simp only [Bool.and_eq_true] at both
  exact ⟨history, event, system, next, there, step, carries, gone,
    List.contains_iff_mem.mp both.1, both.2⟩

end ScoreOrchestrator.Provisioner
