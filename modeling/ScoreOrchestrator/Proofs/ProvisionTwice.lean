/-
Module: Proofs.ProvisionTwice
Purpose: A second Provision call finds everything the first one left and changes
  nothing, although it draws new credentials.
-/
import ScoreOrchestrator.Proofs.PostgresCredentials

namespace ScoreOrchestrator.Provisioner

open Foundation Program

/-! ### What a call leaves in place -/

/-- What was there is still there. -/
def KeepsPresent (before after : Store) : Prop :=
  ∀ kind key, (before.find? kind key).isSome → (after.find? kind key).isSome

section

variable {kind : Kind} {noun : String} {object : kind.Object} {before after : Store}
  {events : List ApiEvent}

theorem createIfMissing_keeps {outcome : Outcome (Except GoError Unit)}
    (run : (createIfMissing kind noun object).Runs apiServer before events outcome after) :
    KeepsPresent before after := by
  intro other key present
  by_cases own : (other, key) = (kind, object.key)
  · cases own
    rcases (createIfMissing_effect run).1 with same | ⟨absent, _⟩
    · rw [same]
      exact present
    · rw [absent] at present
      cases present
  · rw [createIfMissing_find?_of_ne run own]
    exact present

theorem createIfMissing_present
    (run : (createIfMissing kind noun object).Runs apiServer before events
      (.returned (.ok ())) after) : (after.find? kind object.key).isSome :=
  (createIfMissing_effect run).2 rfl

end

/-- The Secret under this key is there and its name is what is published. -/
structure Published (key : NamespacedName) (outputs : Option ResourceClaimOutputs)
    (before after : Store) : Prop where
  kept : KeepsPresent before after
  present : (after.find? .secret key).isSome
  outputs : outputs = some { secretRef := some { name := key.name } }

theorem published_of_publishSecret {secret : Secret} {key : NamespacedName}
    {outputs : Option ResourceClaimOutputs} {before after : Store} {events : List ApiEvent}
    (keyed : secret.key = key)
    (run : (publishSecret secret).Runs apiServer before events (.returned (.ok outputs)) after) :
    Published key outputs before after := by
  subst keyed
  rcases run.orReturn_cases with
    ⟨_, early, late, middle, _, head, tail⟩ | ⟨failed, _⟩
  · cases tail
    exact ⟨createIfMissing_keeps head, createIfMissing_present head, rfl⟩
  · exact absurd rfl (failed outputs)

/-! ### Calls that find everything in place -/

/-- In this store the program only reads, over reads that are current, and if every call
is carried out it returns this value. -/
structure Repeats {α : Type} (program : Client (Except GoError α)) (value : α)
    (store : Store) : Prop where
  onlyReads : OnlyReads truthfulServer program store
  returns : ∃ events, program.Runs healthyServer store events (.returned (.ok value)) store

section

variable {store : Store}

theorem Repeats.orReturn {α : Type} {attempt : Client (Except GoError Unit)}
    {context : GoError → GoError} {rest : Unit → Client (Except GoError α)} {value : α}
    (head : Repeats attempt () store) (tail : Repeats (rest ()) value store) :
    Repeats (attempt.orReturn context rest) value store := by
  obtain ⟨early, first⟩ := head.returns
  obtain ⟨late, second⟩ := tail.returns
  refine ⟨head.onlyReads.bind fun returned => ?_, _, first.orReturn second⟩
  cases returned with
  | ok _ => exact tail.onlyReads
  | error fault => exact .done _

theorem createIfMissing_repeats {kind : Kind} {noun : String} {object : kind.Object}
    {key : NamespacedName} (keyed : object.key = key) (present : (store.find? kind key).isSome) :
    Repeats (createIfMissing kind noun object) () store := by
  subst keyed
  obtain ⟨stored, found⟩ := Option.isSome_iff_exists.mp present
  constructor
  · refine .read rfl fun reply _ served => ?_
    obtain ⟨same, rfl | ⟨fault, rfl, otherwise⟩⟩ := truthfulServer_get found served
    · exact ⟨same, .done _⟩
    · simp only [done_bind, otherwise, Bool.false_eq_true, if_false]
      exact ⟨same, .done _⟩
  · exact ⟨_, .call (serve_get_some found) (.done _ _)⟩

theorem Published.repeats {key : NamespacedName} {outputs : Option ResourceClaimOutputs}
    {before after : Store} (published : Published key outputs before after) {secret : Secret}
    (keyed : secret.key = key) : Repeats (publishSecret secret) outputs after := by
  subst keyed
  rw [published.outputs]
  apply (createIfMissing_repeats rfl published.present).orReturn
  exact ⟨.done _, [], .done _ _⟩

end

/-! ### The strategies -/

section

variable {random : RandomText} {claim : ResourceClaim} {before after : Store}
  {events : List ApiEvent} {outputs : Option ResourceClaimOutputs}

/-- After a successful `Provision` for postgres, another one finds all three objects. -/
theorem PostgresStrategy.provision_repeats (bytes : String)
    (run : (PostgresStrategy.provision random claim).Runs apiServer before events
      (.returned (.ok outputs)) after) :
    Repeats (PostgresStrategy.provision (.ok bytes) claim) outputs after := by
  unfold PostgresStrategy.provision at run
  split at run
  · cases run
  next password _ =>
    rcases run.orReturn_cases with
      ⟨_, _, _, withSet, _, setRun, run⟩ | ⟨failed, _⟩
    · rcases run.orReturn_cases with
        ⟨_, _, _, withService, _, serviceRun, run⟩ | ⟨failed, _⟩
      · have published : Published (keyBeside claim (PostgresStrategy.secretName claim))
            outputs withService after := published_of_publishSecret rfl run
        have service : (after.find? .service (keyBeside claim
            (PostgresStrategy.serviceName claim))).isSome :=
          published.kept _ _ (createIfMissing_present serviceRun)
        have set : (after.find? .statefulSet (keyBeside claim
            (PostgresStrategy.statefulSetName claim))).isSome :=
          published.kept _ _ (createIfMissing_keeps serviceRun _ _
            (createIfMissing_present setRun))
        -- the objects have the same names whatever the password
        apply Repeats.orReturn
        · exact createIfMissing_repeats rfl set
        · apply Repeats.orReturn
          · exact createIfMissing_repeats rfl service
          · exact published.repeats rfl
      · exact absurd rfl (failed outputs)
    · exact absurd rfl (failed outputs)

theorem RedisStrategy.provision_repeats (bytes : String)
    (run : (RedisStrategy.provision random claim).Runs apiServer before events
      (.returned (.ok outputs)) after) :
    Repeats (RedisStrategy.provision (.ok bytes) claim) outputs after := by
  unfold RedisStrategy.provision at run
  split at run
  · cases run
  · have published : Published (keyBeside claim (RedisStrategy.secretName claim)) outputs
        before after := published_of_publishSecret rfl run
    exact published.repeats rfl

theorem SecretStrategy.provision_repeats (bytes : String)
    (run : (SecretStrategy.provision random claim).Runs apiServer before events
      (.returned (.ok outputs)) after) :
    Repeats (SecretStrategy.provision (.ok bytes) claim) outputs after := by
  have published : Published (keyBeside claim (SecretStrategy.secretName claim)) outputs
      before after := published_of_publishSecret rfl run
  exact published.repeats rfl

/-- Provisioning is idempotent: after a `Provision` call of any of the three strategies has
succeeded, a second call for the claim with whatever random bytes writes nothing, and with
every call carried out it returns the outputs of the first and leaves the store as it is. -/
theorem provision_twice {strategy : RandomText → Strategy}
    (known : strategy ∈ [postgresStrategy, redisStrategy, secretStrategy])
    (run : ((strategy random).provision claim).Runs apiServer before events
      (.returned (.ok outputs)) after) (bytes : String) :
    OnlyReads truthfulServer ((strategy (.ok bytes)).provision claim) after ∧
      (∃ again, ((strategy (.ok bytes)).provision claim).Runs healthyServer after again
        (.returned (.ok outputs)) after) ∧
      ∀ again value final, ((strategy (.ok bytes)).provision claim).Runs healthyServer after
        again (.returned value) final → value = .ok outputs ∧ final = after := by
  have repeats : Repeats ((strategy (.ok bytes)).provision claim) outputs after := by
    simp only [List.mem_cons, List.not_mem_nil, or_false] at known
    rcases known with rfl | rfl | rfl
    · exact PostgresStrategy.provision_repeats bytes run
    · exact RedisStrategy.provision_repeats bytes run
    · exact SecretStrategy.provision_repeats bytes run
  refine ⟨repeats.onlyReads, repeats.returns, fun again value final second => ?_⟩
  obtain ⟨_, expected⟩ := repeats.returns
  exact second.returned_unique expected

end

theorem provision_twice_postgres :
    ∃ events outputs after,
      ((postgresStrategy (.ok "first")).provision (claimNamed "web-db" "postgres")).Runs
        healthyServer Store.empty events (.returned (.ok outputs)) after ∧
      ∃ again, ((postgresStrategy (.ok "second")).provision
        (claimNamed "web-db" "postgres")).Runs healthyServer after again
          (.returned (.ok outputs)) after := by
  obtain ⟨events, outputs, after, run⟩ : ∃ events outputs after,
      ((postgresStrategy (.ok "first")).provision (claimNamed "web-db" "postgres")).Runs
        healthyServer Store.empty events (.returned (.ok outputs)) after :=
    PostgresStrategy.exists_run_provision
      (show generateRandomPassword (.ok "first") 16 = _ from rfl) _ _
  have known : postgresStrategy ∈ [postgresStrategy, redisStrategy, secretStrategy] := .head _
  exact ⟨events, outputs, after, run,
    (provision_twice known (runs_apiServer_of_healthyServer run) "second").2.1⟩

end ScoreOrchestrator.Provisioner
