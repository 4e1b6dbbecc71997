/-
Module: Proofs.ProvisionedObjects
Purpose: Which objects the strategies create, read and delete for a claim, and for
  which pairs of claims they are the same ones.
-/
import Mathlib.Data.Set.BooleanAlgebra
import Mathlib.Data.Set.Disjoint
import Mathlib.Order.CompletePartialOrder
import ScoreOrchestrator.Api.ServerLaws
import ScoreOrchestrator.Foundation.Text
import ScoreOrchestrator.Provisioner.Strategies

namespace ScoreOrchestrator.Provisioner

open Foundation Program

variable {kind : Kind} {noun : String} {object : kind.Object} {key : NamespacedName}
  {random : RandomText} {strategy : Strategy} {target : Kind × NamespacedName}
  {claim : ResourceClaim}

/-! ### The objects of a claim -/

/-- The objects of a postgres claim. -/
def PostgresStrategy.objects (claim : ResourceClaim) : List (Kind × NamespacedName) :=
  [(.statefulSet, keyBeside claim (statefulSetName claim)),
    (.service, keyBeside claim (serviceName claim)),
    (.secret, keyBeside claim (secretName claim))]

/-- The object of a redis claim. -/
def RedisStrategy.objects (claim : ResourceClaim) : List (Kind × NamespacedName) :=
  [(.secret, keyBeside claim (secretName claim))]

/-- The object of a secret claim. -/
def SecretStrategy.objects (claim : ResourceClaim) : List (Kind × NamespacedName) :=
  [(.secret, keyBeside claim (secretName claim))]

/-- The objects of a claim, by its type. -/
def objectsOf (claim : ResourceClaim) : List (Kind × NamespacedName) :=
  if claim.spec.type = "postgres" then PostgresStrategy.objects claim
  else if claim.spec.type = "redis" then RedisStrategy.objects claim
  else if claim.spec.type = "secret" then SecretStrategy.objects claim
  else []

/-- A call about one of the given objects. -/
def About (objects : List (Kind × NamespacedName)) ⦃answer : Type⦄ (request : Call answer) : Prop :=
  ∃ target ∈ objects, request.target = some target

/-- Every call that looks for one of the objects, or creates one without finalizers,
is allowed. -/
structure AllowsProvisioning (objects : List (Kind × NamespacedName))
    (allowed : CallSet Call) : Prop where
  gets : ∀ {kind key}, (kind, key) ∈ objects → allowed (.get kind key)
  creates : ∀ {kind} {object : kind.Object}, (kind, object.key) ∈ objects →
    object.metadata.finalizers = [] → allowed (.create kind object)

theorem allowsProvisioning_about (objects : List (Kind × NamespacedName)) :
    AllowsProvisioning objects (About objects) where
  gets member := ⟨_, member, rfl⟩
  creates member _ := ⟨_, member, rfl⟩

section

variable {objects : List (Kind × NamespacedName)}
  {allowed : CallSet Call}

theorem createIfMissing_makes (gets : allowed (.get kind object.key))
    (creates : allowed (.create kind object)) :
    (createIfMissing kind noun object).Makes allowed := by
  refine ⟨gets, fun reply => ?_⟩
  simp only [done_bind]
  cases reply with
  | ok _ => trivial
  | error fault =>
    dsimp only
    split
    · refine ⟨creates, fun created => ?_⟩
      cases created <;> trivial
    · trivial

theorem deleteIfPresent_makes (deletes : allowed (.delete kind key)) :
    (deleteIfPresent kind noun key).Makes allowed := by
  refine ⟨deletes, fun reply => ?_⟩
  simp only [done_bind]
  cases reply with
  | ok _ => trivial
  | error fault =>
    dsimp only
    split <;> trivial

theorem publishSecret_makes (allows : AllowsProvisioning objects allowed) {secret : Secret}
    (member : (.secret, secret.key) ∈ objects) (plain : secret.metadata.finalizers = []) :
    (publishSecret secret).Makes allowed :=
  (createIfMissing_makes (allows.gets member) (allows.creates member plain)).orReturn
    fun _ => trivial

theorem secretStatus_makes (allows : AllowsProvisioning objects allowed)
    {creating available : String} (member : (.secret, key) ∈ objects) :
    (secretStatus key noun creating available).Makes allowed := by
  refine ⟨allows.gets member, fun reply => ?_⟩
  simp only [done_bind]
  cases reply with
  | ok _ => trivial
  | error fault =>
    dsimp only
    split <;> trivial

/-- A program that is about some objects leaves every other one as it is. -/
theorem find?_of_about {α : Type} {program : Client α} {before after : Store}
    {events : List ApiEvent} {outcome : Outcome α} (makes : program.Makes (About objects))
    (run : program.Runs apiServer before events outcome after) (other : (kind, key) ∉ objects) :
    after.find? kind key = before.find? kind key := by
  refine run.of_makes (fun before after => after.find? kind key = before.find? kind key)
    ?_ ?_ ?_ makes
  · exact fun _ => rfl
  · exact fun early late => late.trans early
  · intro answer request about before reply after served
    apply apiServer_find?_of_target_ne _ served
    intro same
    obtain ⟨target, member, targeted⟩ := about
    rw [same] at targeted
    cases targeted
    exact other member

end

/-- Every call of a strategy for a claim is about one of the given objects. -/
structure StaysWithin (strategy : Strategy) (claim : ResourceClaim)
    (objects : List (Kind × NamespacedName)) : Prop where
  provision : (strategy.provision claim).Makes (About objects)
  deprovision : (strategy.deprovision claim).Makes (About objects)
  getStatus : (strategy.getStatus claim).Makes (About objects)

section

variable {allowed : CallSet Call}

namespace PostgresStrategy

variable (claim : ResourceClaim)

theorem statefulSet_mem :
    (.statefulSet, keyBeside claim (statefulSetName claim)) ∈ objects claim := .head _

theorem service_mem :
    (.service, keyBeside claim (serviceName claim)) ∈ objects claim := .tail _ (.head _)

theorem secret_mem : (.secret, keyBeside claim (secretName claim)) ∈ objects claim :=
  .tail _ (.tail _ (.head _))

section

variable {claim : ResourceClaim} (allows : AllowsProvisioning (objects claim) allowed)
include allows

theorem provision_makes (random : RandomText) : (provision random claim).Makes allowed := by
  unfold provision
  split
  · trivial
  · apply (createIfMissing_makes (allows.gets (statefulSet_mem claim))
      (allows.creates (statefulSet_mem claim) rfl)).orReturn
    intro _
    apply (createIfMissing_makes (allows.gets (service_mem claim))
      (allows.creates (service_mem claim) rfl)).orReturn
    intro _
    exact publishSecret_makes allows (secret_mem claim) rfl

theorem serviceStatus_makes : (serviceStatus claim).Makes allowed := by
  refine ⟨allows.gets (service_mem claim), fun reply => ?_⟩
  simp only [done_bind]
  cases reply with
  | ok _ => trivial
  | error fault =>
    dsimp only
    split <;> trivial

theorem statefulSetStatus_makes : (statefulSetStatus claim).Makes allowed := by
  refine ⟨allows.gets (statefulSet_mem claim), fun reply => ?_⟩
  simp only [done_bind]
  cases reply with
  | ok statefulSet =>
    dsimp only
    split
    · trivial
    · split
      · trivial
      · exact serviceStatus_makes allows
  | error fault =>
    dsimp only
    split <;> trivial

theorem getStatus_makes : (getStatus claim).Makes allowed := by
  refine ⟨allows.gets (secret_mem claim), fun reply => ?_⟩
  simp only [done_bind]
  cases reply with
  | ok _ => exact statefulSetStatus_makes allows
  | error fault =>
    dsimp only
    split <;> trivial

end

theorem deprovision_makes
    (deletes : ∀ {kind key}, (kind, key) ∈ objects claim → allowed (.delete kind key)) :
    (deprovision claim).Makes allowed := by
  apply (deleteIfPresent_makes (deletes (statefulSet_mem claim))).orReturn
  intro _
  apply (deleteIfPresent_makes (deletes (service_mem claim))).orReturn
  intro _
  exact deleteIfPresent_makes (deletes (secret_mem claim))

theorem staysWithin (random : RandomText) :
    StaysWithin (postgresStrategy random) claim (objects claim) where
  provision := provision_makes (allowsProvisioning_about _) random
  deprovision := deprovision_makes claim fun member => ⟨_, member, rfl⟩
  getStatus := getStatus_makes (allowsProvisioning_about _)

end PostgresStrategy

theorem RedisStrategy.provision_makes
    (allows : AllowsProvisioning (RedisStrategy.objects claim) allowed) (random : RandomText) :
    (RedisStrategy.provision random claim).Makes allowed := by
  unfold RedisStrategy.provision
  split
  · trivial
  · exact publishSecret_makes allows (.head _) rfl

theorem RedisStrategy.staysWithin (claim : ResourceClaim) (random : RandomText) :
    StaysWithin (redisStrategy random) claim (RedisStrategy.objects claim) where
  provision := RedisStrategy.provision_makes (allowsProvisioning_about _) random
  deprovision := deleteIfPresent_makes ⟨_, .head _, rfl⟩
  getStatus := secretStatus_makes (allowsProvisioning_about _) (.head _)

theorem SecretStrategy.staysWithin (claim : ResourceClaim) (random : RandomText) :
    StaysWithin (secretStrategy random) claim (SecretStrategy.objects claim) where
  provision := publishSecret_makes (allowsProvisioning_about _) (.head _) rfl
  deprovision := deleteIfPresent_makes ⟨_, .head _, rfl⟩
  getStatus := secretStatus_makes (allowsProvisioning_about _) (.head _)

end

/-! ### The strategy of a claim -/

/-- The strategy that is registered for the type of a claim. -/
def strategyOf (random : RandomText) (claim : ResourceClaim) : Except GoError Strategy :=
  (registerStrategies random).getStrategy claim.spec.type

theorem strategyOf_postgres (random : RandomText) (type : claim.spec.type = "postgres") :
    strategyOf random claim = .ok (postgresStrategy random) := by
  unfold strategyOf
  rw [type]
  rfl

theorem strategyOf_redis (random : RandomText) (type : claim.spec.type = "redis") :
    strategyOf random claim = .ok (redisStrategy random) := by
  unfold strategyOf
  rw [type]
  rfl

theorem strategyOf_secret (random : RandomText) (type : claim.spec.type = "secret") :
    strategyOf random claim = .ok (secretStrategy random) := by
  unfold strategyOf
  rw [type]
  rfl

theorem strategyOf_cases (selected : strategyOf random claim = .ok strategy) :
    (claim.spec.type = "postgres" ∧ strategy = postgresStrategy random) ∨
      (claim.spec.type = "redis" ∧ strategy = redisStrategy random) ∨
      (claim.spec.type = "secret" ∧ strategy = secretStrategy random) := by
  by_cases postgres : claim.spec.type = "postgres"
  · rw [strategyOf_postgres random postgres] at selected
    cases selected
    exact .inl ⟨postgres, rfl⟩
  by_cases redis : claim.spec.type = "redis"
  · rw [strategyOf_redis random redis] at selected
    cases selected
    exact .inr (.inl ⟨redis, rfl⟩)
  by_cases secret : claim.spec.type = "secret"
  · rw [strategyOf_secret random secret] at selected
    cases selected
    exact .inr (.inr ⟨secret, rfl⟩)
  · simp only [strategyOf, registerStrategies, Selector.registerStrategy,
      Selector.getStrategy, Selector.new, postgresStrategy, redisStrategy,
      secretStrategy, postgres, redis, secret, if_false] at selected
    cases selected

theorem objectsOf_postgres (type : claim.spec.type = "postgres") :
    objectsOf claim = PostgresStrategy.objects claim := by
  simp [objectsOf, type]

theorem objectsOf_redis (type : claim.spec.type = "redis") :
    objectsOf claim = RedisStrategy.objects claim := by
  simp [objectsOf, type]

theorem objectsOf_secret (type : claim.spec.type = "secret") :
    objectsOf claim = SecretStrategy.objects claim := by
  simp [objectsOf, type]

theorem objectsOf_congr {other : ResourceClaim} (key : other.key = claim.key)
    (spec : other.spec = claim.spec) : objectsOf other = objectsOf claim := by
  have name : other.metadata.name = claim.metadata.name := congrArg NamespacedName.name key
  have ns : other.metadata.ns = claim.metadata.ns := congrArg NamespacedName.ns key
  simp only [objectsOf, spec, PostgresStrategy.objects, RedisStrategy.objects,
    SecretStrategy.objects, keyBeside, PostgresStrategy.statefulSetName,
    PostgresStrategy.serviceName, PostgresStrategy.secretName, RedisStrategy.secretName,
    SecretStrategy.secretName, name, ns]

/-- The objects of a claim are no claims. -/
theorem ne_resourceClaim_of_mem_objectsOf (member : target ∈ objectsOf claim) :
    target.1 ≠ .resourceClaim := by
  unfold objectsOf at member
  split_ifs at member <;>
    simp only [PostgresStrategy.objects, RedisStrategy.objects, SecretStrategy.objects,
      List.mem_cons, List.not_mem_nil, or_false] at member
  · rcases member with rfl | rfl | rfl <;> exact nofun
  · subst member
    exact nofun
  · subst member
    exact nofun

section

variable (selected : strategyOf random claim = .ok strategy)
include selected

theorem strategyOf_staysWithin : StaysWithin strategy claim (objectsOf claim) := by
  rcases strategyOf_cases selected with ⟨type, rfl⟩ | ⟨type, rfl⟩ | ⟨type, rfl⟩
  · rw [objectsOf_postgres type]
    exact PostgresStrategy.staysWithin claim random
  · rw [objectsOf_redis type]
    exact RedisStrategy.staysWithin claim random
  · rw [objectsOf_secret type]
    exact SecretStrategy.staysWithin claim random

/-- `Provision` and `GetStatus` of a claim look for its objects and create them. -/
theorem strategyOf_makes {allowed : CallSet Call}
    (allows : AllowsProvisioning (objectsOf claim) allowed) :
    (strategy.provision claim).Makes allowed ∧ (strategy.getStatus claim).Makes allowed := by
  rcases strategyOf_cases selected with ⟨type, rfl⟩ | ⟨type, rfl⟩ | ⟨type, rfl⟩
  · rw [objectsOf_postgres type] at allows
    exact ⟨PostgresStrategy.provision_makes allows random,
      PostgresStrategy.getStatus_makes allows⟩
  · rw [objectsOf_redis type] at allows
    exact ⟨RedisStrategy.provision_makes allows random,
      secretStatus_makes allows (.head _)⟩
  · rw [objectsOf_secret type] at allows
    exact ⟨publishSecret_makes allows (.head _) rfl, secretStatus_makes allows (.head _)⟩

/-- `Deprovision` of a claim deletes its objects. -/
theorem strategyOf_deprovision_makes {allowed : CallSet Call}
    (deletes : ∀ {kind key}, (kind, key) ∈ objectsOf claim → allowed (.delete kind key)) :
    (strategy.deprovision claim).Makes allowed := by
  rcases strategyOf_cases selected with ⟨type, rfl⟩ | ⟨type, rfl⟩ | ⟨type, rfl⟩
  · rw [objectsOf_postgres type] at deletes
    exact PostgresStrategy.deprovision_makes claim deletes
  · rw [objectsOf_redis type] at deletes
    exact deleteIfPresent_makes (deletes (.head _))
  · rw [objectsOf_secret type] at deletes
    exact deleteIfPresent_makes (deletes (.head _))

end

/-- Can a program make a call about this object? -/
def Touches {α : Type} (program : Client α) (target : Kind × NamespacedName) : Prop :=
  program.CanMake fun _ request => request.target = some target

/-- The objects that `Provision`, `GetStatus` or `Deprovision` of a claim can
create, read or delete, whatever the replies and the random bytes. -/
def touched (claim : ResourceClaim) : Set (Kind × NamespacedName) :=
  { target | ∃ random strategy, strategyOf random claim = .ok strategy ∧
    (Touches (strategy.provision claim) target ∨
      Touches (strategy.getStatus claim) target ∨
      Touches (strategy.deprovision claim) target) }

theorem Touches.mem {α : Type} {program : Client α} {objects : List (Kind × NamespacedName)}
    (touches : Touches program target) (makes : program.Makes (About objects)) :
    target ∈ objects := by
  obtain ⟨_, request, about, other, member, same⟩ := touches.exists_allowed makes
  rw [about] at same
  cases same
  exact member

theorem touches_provision (selected : strategyOf random claim = .ok strategy)
    (touches : Touches (strategy.provision claim) target) : target ∈ touched claim :=
  ⟨random, strategy, selected, .inl touches⟩

/-- The objects touched for a claim are exactly those of its type. -/
theorem mem_touched_iff : target ∈ touched claim ↔ target ∈ objectsOf claim := by
  constructor
  · intro member
    obtain ⟨random, strategy, selected, touches⟩ := member
    have within := strategyOf_staysWithin selected
    rcases touches with provision | getStatus | deprovision
    · exact provision.mem within.provision
    · exact getStatus.mem within.getStatus
    · exact deprovision.mem within.deprovision
  · intro member
    unfold objectsOf at member
    split at member
    next type =>
      have selected := strategyOf_postgres (.ok "") type
      apply touches_provision selected
      -- an object that exists leads on to the next one
      simp only [PostgresStrategy.objects, List.mem_cons, List.not_mem_nil,
        or_false] at member
      rcases member with rfl | rfl | rfl
      · exact .inl rfl
      · exact .inr ⟨.ok (PostgresStrategy.statefulSet claim "" ""), .inl rfl⟩
      · exact .inr ⟨.ok (PostgresStrategy.statefulSet claim "" ""),
          .inr ⟨.ok (PostgresStrategy.service claim), .inl rfl⟩⟩
    next =>
      split at member
      next type =>
        cases List.mem_singleton.mp member
        exact touches_provision (strategyOf_redis (.ok "") type) (.inl rfl)
      next =>
        split at member
        next type =>
          cases List.mem_singleton.mp member
          exact touches_provision (strategyOf_secret (.ok "") type) (.inl rfl)
        next => cases member

/-! ### The outputs of a claim -/

/-- A claim of one of the registered types. -/
def IsProvisioned (claim : ResourceClaim) : Prop :=
  claim.spec.type = "postgres" ∨ claim.spec.type = "redis" ∨
    claim.spec.type = "secret"

/-- What follows the name of a claim in the name of its Secret. -/
def secretSuffix (type : String) : String :=
  if type = "postgres" then "-postgres-secret"
  else if type = "redis" then "-redis-secret"
  else "-secret"

/-- The Secret of a claim. -/
def secretOf (claim : ResourceClaim) : NamespacedName :=
  keyBeside claim (claim.metadata.name ++ secretSuffix claim.spec.type)

theorem secretOf_mem (provisioned : IsProvisioned claim) :
    (.secret, secretOf claim) ∈ objectsOf claim := by
  unfold secretOf
  rcases provisioned with type | type | type
  · rw [objectsOf_postgres type, type]
    exact PostgresStrategy.secret_mem claim
  · rw [objectsOf_redis type, type]
    exact .head _
  · rw [objectsOf_secret type, type]
    exact .head _

/-- What the strategy of a claim's type publishes. -/
def publishedOutputs (claim : ResourceClaim) : ResourceClaimOutputs where
  secretRef := some { name := (secretOf claim).name }

theorem createIfMissing_orReturn_yields {β : Type} {context : GoError → GoError}
    {rest : Unit → Client (Except GoError β)} {holds : Except GoError β → Prop}
    (errors : ∀ fault, holds (.error fault)) (yields : (rest ()).Yields holds) :
    ((createIfMissing kind noun object).orReturn context rest).Yields holds := by
  intro reply
  cases reply with
  | ok _ => exact yields
  | error fault =>
    simp only [done_bind]
    split
    · intro created
      cases created with
      | ok _ => exact yields
      | error _ => exact errors _
    · exact errors _

/-- The only outputs that a strategy returns. -/
def Returns (outputs : ResourceClaimOutputs)
    (returned : Except GoError (Option ResourceClaimOutputs)) : Prop :=
  ∀ given, returned = .ok given → given = some outputs

theorem publishSecret_returns {secret : Secret} {name : String}
    (named : secret.metadata.name = name) :
    (publishSecret secret).Yields (Returns { secretRef := some { name } }) := by
  subst named
  apply createIfMissing_orReturn_yields
  · exact nofun
  · intro given returned
    cases returned
    rfl

theorem strategyOf_returns (selected : strategyOf random claim = .ok strategy) :
    (strategy.provision claim).Yields (Returns (publishedOutputs claim)) := by
  have errors : ∀ fault, Returns (publishedOutputs claim) (.error fault) := fun _ => nofun
  unfold publishedOutputs secretOf at errors ⊢
  rcases strategyOf_cases selected with ⟨type, rfl⟩ | ⟨type, rfl⟩ | ⟨type, rfl⟩
  · rw [type] at errors ⊢
    unfold postgresStrategy PostgresStrategy.provision
    split
    · exact errors _
    · apply createIfMissing_orReturn_yields errors
      apply createIfMissing_orReturn_yields errors
      exact publishSecret_returns rfl
  · rw [type] at errors ⊢
    unfold redisStrategy RedisStrategy.provision
    split
    · exact errors _
    · exact publishSecret_returns rfl
  · rw [type]
    exact publishSecret_returns rfl

theorem strategyOf_isProvisioned (selected : strategyOf random claim = .ok strategy) :
    IsProvisioned claim :=
  (strategyOf_cases selected).imp And.left (Or.imp And.left And.left)

theorem exists_strategyOf (provisioned : IsProvisioned claim) (random : RandomText) :
    ∃ strategy, strategyOf random claim = .ok strategy := by
  rcases provisioned with type | type | type
  · exact ⟨_, strategyOf_postgres random type⟩
  · exact ⟨_, strategyOf_redis random type⟩
  · exact ⟨_, strategyOf_secret random type⟩

/-! ### What claims do to each other's objects -/

/-- An object that `Provision` of a claim can create. -/
def CreatedFor (claim : ResourceClaim) (kind : Kind) (object : kind.Object) : Prop :=
  ∃ random strategy, strategyOf random claim = .ok strategy ∧
    (strategy.provision claim).CanMake fun _ request =>
      request.written kind = some object

theorem target_of_written {answer : Type} {request : Call answer}
    (written : request.written kind = some object) : request.target = some (kind, object.key) := by
  cases request with
  | get | list | delete | updateStatus | patchStatus => cases written
  | create other sent | update other sent | patch other _ sent =>
    simp only [Call.written] at written
    split at written
    next same =>
      subst same
      cases written
      rfl
    next => cases written

theorem CreatedFor.mem_touched (created : CreatedFor claim kind object) :
    (kind, object.key) ∈ touched claim := by
  obtain ⟨random, strategy, selected, can⟩ := created
  exact touches_provision selected (can.mono fun _ _ => target_of_written)

/-- In every store, `Provision` of one claim never publishes a Secret created for
the other one, and `Deprovision` leaves every object created for the other one as
it is. -/
structure KeepsOff (claim other : ResourceClaim) : Prop where
  publishes : ∀ {random strategy store events outputs final},
    strategyOf random claim = .ok strategy →
    (strategy.provision claim).Runs apiServer store events
      (.returned (.ok (some outputs))) final →
    ∀ secret, CreatedFor other .secret secret →
      outputs.secretRef ≠ some { name := secret.metadata.name }
  deletes : ∀ {random strategy store events outcome final},
    strategyOf random claim = .ok strategy →
    (strategy.deprovision claim).Runs apiServer store events outcome final →
    ∀ kind object, CreatedFor other kind object →
      final.find? kind object.key = store.find? kind object.key

/-- Two claims have nothing to do with each other. -/
structure Separate (first second : ResourceClaim) : Prop where
  disjoint : Disjoint (touched first) (touched second)
  first_keepsOff : KeepsOff first second
  second_keepsOff : KeepsOff second first

theorem ns_of_mem_objectsOf (member : target ∈ objectsOf claim) :
    target.2.ns = claim.metadata.ns := by
  unfold objectsOf PostgresStrategy.objects RedisStrategy.objects
    SecretStrategy.objects at member
  split at member
  · simp only [List.mem_cons, List.not_mem_nil, or_false] at member
    rcases member with rfl | rfl | rfl <;> rfl
  · split at member
    · cases List.mem_singleton.mp member
      rfl
    · split at member
      · cases List.mem_singleton.mp member
        rfl
      · cases member

/-- Claims of one namespace with disjoint objects keep off each other's. -/
theorem keepsOff_of_disjoint {other : ResourceClaim}
    (together : claim.metadata.ns = other.metadata.ns)
    (disjoint : Disjoint (touched claim) (touched other)) : KeepsOff claim other where
  publishes := by
    intro random strategy store events outputs final selected run secret created same
    have published := run.of_yields (strategyOf_returns selected) _ rfl
    have names : (secretOf claim).name = secret.metadata.name := by
      cases published
      exact congrArg LocalObjectReference.name (Option.some.inj same)
    have mine := mem_touched_iff.mpr (secretOf_mem (strategyOf_isProvisioned selected))
    have theirs := created.mem_touched
    have named : secret.key = secretOf claim := by
      have beside := ns_of_mem_objectsOf (mem_touched_iff.mp theirs)
      simp only [Resource.key] at beside ⊢
      rw [beside, ← names, ← together]
      rfl
    rw [named] at theirs
    exact Set.disjoint_left.mp disjoint mine theirs
  deletes := by
    intro random strategy store events outcome final selected run kind object created
    apply find?_of_about (strategyOf_staysWithin selected).deprovision run
    intro mine
    exact Set.disjoint_left.mp disjoint (mem_touched_iff.mpr mine) created.mem_touched

/-! ### When two claims share a Secret -/

/-- A secret claim is named like another claim followed by the type of that
claim. -/
def NamedAfter (claim other : ResourceClaim) : Prop :=
  claim.spec.type = "secret" ∧
    (other.spec.type = "postgres" ∧
        claim.metadata.name = other.metadata.name ++ "-postgres" ∨
      other.spec.type = "redis" ∧
        claim.metadata.name = other.metadata.name ++ "-redis")

instance (claim other : ResourceClaim) : Decidable (NamedAfter claim other) :=
  inferInstanceAs (Decidable (_ ∧ (_ ∧ _ ∨ _ ∧ _)))

/-- One of two claims is named after the other. -/
def SharesSecret (first second : ResourceClaim) : Prop :=
  NamedAfter first second ∨ NamedAfter second first

instance (first second : ResourceClaim) : Decidable (SharesSecret first second) :=
  inferInstanceAs (Decidable (_ ∨ _))

theorem mem_objectsOf_cases (provisioned : IsProvisioned claim)
    (member : target ∈ objectsOf claim) :
    target = (.statefulSet, keyBeside claim (claim.metadata.name ++ "-postgres")) ∨
      target = (.service, keyBeside claim (claim.metadata.name ++ "-postgres-service")) ∨
      target = (.secret, secretOf claim) := by
  rcases provisioned with type | type | type
  · rw [objectsOf_postgres type] at member
    simp only [PostgresStrategy.objects, List.mem_cons, List.not_mem_nil,
      or_false] at member
    rcases member with rfl | rfl | rfl
    · exact .inl rfl
    · exact .inr (.inl rfl)
    · right; right
      rw [secretOf, type]
      rfl
  · rw [objectsOf_redis type] at member
    cases List.mem_singleton.mp member
    right; right
    rw [secretOf, type]
    rfl
  · rw [objectsOf_secret type] at member
    cases List.mem_singleton.mp member
    right; right
    rw [secretOf, type]
    rfl

theorem postgres_ne_redis (first second : String) :
    first ++ "-postgres-secret" ≠ second ++ "-redis-secret" := by
  intro same
  have reversed := congrArg (fun text : String => text.toList.reverse) same
  simp [String.toList_append] at reversed

theorem longer_eq_secret_iff {name other : String} (type : String) :
    name ++ (type ++ "-secret") = other ++ "-secret" ↔ other = name ++ type := by
  rw [← String.append_assoc, String.append_left_inj]
  exact eq_comm

/-- The Secrets of two claims have one name only if the claims have, or if one is
named after the other. -/
theorem secretOf_eq_iff {first second : ResourceClaim} (firstProvisioned : IsProvisioned first)
    (secondProvisioned : IsProvisioned second) (together : first.metadata.ns = second.metadata.ns)
    (distinct : first.metadata.name ≠ second.metadata.name) :
    secretOf first = secretOf second ↔ SharesSecret first second := by
  have names : secretOf first = secretOf second ↔
      first.metadata.name ++ secretSuffix first.spec.type =
        second.metadata.name ++ secretSuffix second.spec.type := by
    simp [secretOf, keyBeside, together]
  have postgres : secretSuffix "postgres" = "-postgres" ++ "-secret" := rfl
  have redis : secretSuffix "redis" = "-redis" ++ "-secret" := rfl
  have secret : secretSuffix "secret" = "-secret" := rfl
  rw [names]
  unfold SharesSecret NamedAfter
  rcases firstProvisioned with one | one | one <;>
    rcases secondProvisioned with two | two | two <;>
    rw [one, two]
  · simp [distinct]
  · have different : first.metadata.name ++ secretSuffix "postgres" ≠
        second.metadata.name ++ secretSuffix "redis" := postgres_ne_redis _ _
    simp [different]
  · rw [postgres, secret, longer_eq_secret_iff]
    simp
  · have different : first.metadata.name ++ secretSuffix "redis" ≠
        second.metadata.name ++ secretSuffix "postgres" := (postgres_ne_redis _ _).symm
    simp [different]
  · simp [distinct]
  · rw [redis, secret, longer_eq_secret_iff]
    simp
  · rw [postgres, secret, eq_comm, longer_eq_secret_iff]
    simp
  · rw [redis, secret, eq_comm, longer_eq_secret_iff]
    simp
  · simp [distinct]

theorem disjoint_touched_iff {first second : ResourceClaim} (firstProvisioned : IsProvisioned first)
    (secondProvisioned : IsProvisioned second) (together : first.metadata.ns = second.metadata.ns)
    (distinct : first.metadata.name ≠ second.metadata.name) :
    Disjoint (touched first) (touched second) ↔ ¬ SharesSecret first second := by
  rw [← secretOf_eq_iff firstProvisioned secondProvisioned together distinct]
  constructor
  · intro disjoint same
    have mine := mem_touched_iff.mpr (secretOf_mem firstProvisioned)
    have theirs := mem_touched_iff.mpr (secretOf_mem secondProvisioned)
    rw [same] at mine
    exact Set.disjoint_left.mp disjoint mine theirs
  · intro different
    refine Set.disjoint_left.mpr fun target mine theirs => ?_
    have beside : ∀ suffix, keyBeside first (first.metadata.name ++ suffix) ≠
        keyBeside second (second.metadata.name ++ suffix) := by
      intro suffix same
      have names := congrArg NamespacedName.name same
      exact distinct ((String.append_left_inj suffix).mp names)
    -- only objects of one kind can be the same one
    rcases mem_objectsOf_cases firstProvisioned (mem_touched_iff.mp mine) with
      rfl | rfl | rfl <;>
      rcases mem_objectsOf_cases secondProvisioned (mem_touched_iff.mp theirs) with
        same | same | same
    · exact beside _ (congrArg Prod.snd same)
    · cases congrArg Prod.fst same
    · cases congrArg Prod.fst same
    · cases congrArg Prod.fst same
    · exact beside _ (congrArg Prod.snd same)
    · cases congrArg Prod.fst same
    · cases congrArg Prod.fst same
    · cases congrArg Prod.fst same
    · exact different (congrArg Prod.snd same)

/-- Distinct claims of one namespace are separate exactly if neither is a secret
claim named after the other. -/
theorem separate_iff {first second : ResourceClaim} (firstProvisioned : IsProvisioned first)
    (secondProvisioned : IsProvisioned second) (together : first.metadata.ns = second.metadata.ns)
    (distinct : first.metadata.name ≠ second.metadata.name) :
    Separate first second ↔ ¬ SharesSecret first second := by
  rw [← disjoint_touched_iff firstProvisioned secondProvisioned together distinct]
  constructor
  · exact Separate.disjoint
  · intro disjoint
    exact ⟨disjoint, keepsOff_of_disjoint together disjoint,
      keepsOff_of_disjoint together.symm disjoint.symm⟩

/-- A claim with the given name and type. -/
def claimNamed (name type : String) : ResourceClaim where
  metadata := { name, ns := "default" }
  spec := { workloadRef := ⟨"default", "web"⟩, key := "db", type }
  status := default

/-- A postgres claim and a secret claim with unrelated names. -/
theorem separate_web_db :
    ¬ SharesSecret (claimNamed "web-db" "postgres") (claimNamed "web-token" "secret") ∧
      Separate (claimNamed "web-db" "postgres") (claimNamed "web-token" "secret") := by
  have unrelated : ¬ SharesSecret (claimNamed "web-db" "postgres")
      (claimNamed "web-token" "secret") := by decide
  have database : IsProvisioned (claimNamed "web-db" "postgres") := .inl rfl
  have token : IsProvisioned (claimNamed "web-token" "secret") := .inr (.inr rfl)
  exact ⟨unrelated, (separate_iff database token rfl (by decide)).mpr unrelated⟩

/-- The cluster after a postgres claim was provisioned. -/
@[irreducible] def provisionedStore (claim : ResourceClaim) : Store :=
  ((PostgresStrategy.provision (.ok "c2VjcmV0") claim).execute serve [] .empty).2.2

/-- The cluster after a secret claim was deprovisioned. -/
@[irreducible] def deprovisionedStore (claim : ResourceClaim) (store : Store) : Store :=
  ((SecretStrategy.deprovision claim).execute serve [] store).2.2

theorem createdFor_postgres (claim : ResourceClaim)
    (type : claim.spec.type = "postgres") (random : String) :
    ∃ secret, CreatedFor claim .secret secret ∧
      secret.key = keyBeside claim (PostgresStrategy.secretName claim) := by
  refine ⟨PostgresStrategy.secret claim "postgres"
    (String.ofList (random.toList.take 16)), ⟨.ok random, _,
      strategyOf_postgres _ type, ?_⟩, rfl⟩
  -- StatefulSet and Service exist, the Secret does not
  exact .inr ⟨.ok (PostgresStrategy.statefulSet claim "" ""),
    .inr ⟨.ok (PostgresStrategy.service claim),
      .inr ⟨.error { text := "", reason := .notFound }, .inl rfl⟩⟩⟩

/-- The claim x of type postgres and the claim x-postgres of type secret share the
Secret x-postgres-secret, and deprovisioning the second deletes it under the
first. -/
theorem not_separate_x_postgres :
    let database := claimNamed "x" "postgres"
    let token := claimNamed "x-postgres" "secret"
    IsProvisioned database ∧ IsProvisioned token ∧
      database.metadata.ns = token.metadata.ns ∧
      database.metadata.name ≠ token.metadata.name ∧
      ¬ Disjoint (touched database) (touched token) ∧ ¬ KeepsOff token database := by
  intro database token
  have shares : SharesSecret database token := by decide
  have postgres : IsProvisioned database := .inl rfl
  have secret : IsProvisioned token := .inr (.inr rfl)
  have distinct : database.metadata.name ≠ token.metadata.name := by decide
  have joint : ¬ Disjoint (touched database) (touched token) := by
    rw [disjoint_touched_iff postgres secret rfl distinct]
    exact not_not_intro shares
  refine ⟨postgres, secret, rfl, distinct, joint, ?_⟩
  intro keepsOff
  obtain ⟨secret, created, named⟩ := createdFor_postgres database rfl ""
  have kept : (deprovisionedStore token (provisionedStore database)).find? .secret
      secret.key = (provisionedStore database).find? .secret secret.key := by
    unfold deprovisionedStore
    exact keepsOff.deletes (strategyOf_secret (.ok "") rfl)
      (runs_execute serve (SecretStrategy.deprovision token) []
        (provisionedStore database)) .secret secret created
  rw [named] at kept
  have gone : ((deprovisionedStore token (provisionedStore database)).find? .secret
      (keyBeside database (PostgresStrategy.secretName database))).isSome ≠
        ((provisionedStore database).find? .secret
          (keyBeside database (PostgresStrategy.secretName database))).isSome := by
    decide +kernel
  exact gone (congrArg Option.isSome kept)

end ScoreOrchestrator.Provisioner
