/-
Module: Proofs.PostgresCredentials
Purpose: The password in the Secret of a postgres claim against the one in its
  StatefulSet, over repeated and interrupted calls of Provision.
-/
import ScoreOrchestrator.Proofs.ProvisionedObjects

namespace ScoreOrchestrator.Provisioner

open Foundation Program

variable {events : List ApiEvent}
  {outcome : Outcome (Except GoError (Option ResourceClaimOutputs))} {claim : ResourceClaim}
  {password : String} {set : StatefulSet}

/-! ### Creating what is missing -/

/-- The object under the key of the given one was left as it is, or it is the given
one, newly created. -/
def CreatedAtMost (kind : Kind) (object : kind.Object) (before after : Store) : Prop :=
  after.find? kind object.key = before.find? kind object.key ∨
    before.find? kind object.key = none ∧
      ∃ stored, after.find? kind object.key = some stored ∧ stored.spec = object.spec

section

variable {kind : Kind} {noun : String} {object : kind.Object} {before after : Store}

/-- An object that is there after the step was there before, or has just been
created. -/
theorem CreatedAtMost.cases (created : CreatedAtMost kind object before after)
    {stored : kind.Object} (found : after.find? kind object.key = some stored) :
    before.find? kind object.key = some stored ∨
      before.find? kind object.key = none ∧ stored.spec = object.spec := by
  rcases created with same | ⟨absent, new, finds, spec⟩
  · rw [← same]
    exact .inl found
  · rw [finds] at found
    cases found
    exact .inr ⟨absent, spec⟩

/-- Steps around it that leave the object alone. -/
theorem CreatedAtMost.framed (created : CreatedAtMost kind object before after) {first last : Store}
    (early : before.find? kind object.key = first.find? kind object.key)
    (late : last.find? kind object.key = after.find? kind object.key) :
    CreatedAtMost kind object first last := by
  rw [CreatedAtMost, early] at created
  rw [CreatedAtMost, late]
  exact created

theorem apiServer_create_finds {created : kind.Object}
    (served : apiServer (.create kind object) before (.ok created) after) :
    before.find? kind object.key = none ∧
      ∃ stored, after.find? kind object.key = some stored ∧ stored.spec = object.spec := by
  obtain ⟨absent, committed⟩ := apiServer_create_ok served
  have finds := before.find?_commit_self kind
    (show (object.created before.revision).isReleased = false from rfl)
  rw [← committed] at finds
  exact ⟨absent, _, finds, rfl⟩

/-- However it ends, `createIfMissing` creates the object or nothing, and when it
reports success the object is there. -/
theorem createIfMissing_effect {outcome : Outcome (Except GoError Unit)}
    (run : (createIfMissing kind noun object).Runs apiServer before events outcome after) :
    CreatedAtMost kind object before after ∧
      (outcome = .returned (.ok ()) → (after.find? kind object.key).isSome) := by
  have unchanged : ∀ store, CreatedAtMost kind object store store := fun _ => .inl rfl
  cases run with
  | interrupted => exact ⟨unchanged _, nofun⟩
  | @call _ _ _ _ _ _ reply _ _ served rest =>
    cases reply with
    | ok found =>
      obtain ⟨present, rfl⟩ := apiServer_get_ok served
      cases rest with
      | done => exact ⟨unchanged _, fun _ => Option.isSome_of_eq_some present⟩
      | interrupted => exact ⟨unchanged _, nofun⟩
    | error fault =>
      obtain rfl := apiServer_of_error served
      simp only [done_bind] at rest
      split at rest
      · cases rest with
        | interrupted => exact ⟨unchanged _, nofun⟩
        | @call _ _ _ _ _ _ created _ _ servedCreate last =>
          cases created with
          | ok new =>
            obtain ⟨absent, stored, finds, spec⟩ := apiServer_create_finds servedCreate
            cases last with
            | done =>
              exact ⟨.inr ⟨absent, stored, finds, spec⟩,
                fun _ => Option.isSome_of_eq_some finds⟩
            | interrupted => exact ⟨.inr ⟨absent, stored, finds, spec⟩, nofun⟩
          | error fault =>
            obtain rfl := apiServer_of_error servedCreate
            cases last with
            | done => exact ⟨unchanged _, nofun⟩
            | interrupted => exact ⟨unchanged _, nofun⟩
      · cases rest with
        | done => exact ⟨unchanged _, nofun⟩
        | interrupted => exact ⟨unchanged _, nofun⟩

/-- `createIfMissing` is about one object. -/
theorem createIfMissing_find?_of_ne {outcome : Outcome (Except GoError Unit)}
    (run : (createIfMissing kind noun object).Runs apiServer before events outcome after)
    {other : Kind} {key : NamespacedName} (different : (other, key) ≠ (kind, object.key)) :
    after.find? other key = before.find? other key := by
  have makes : (createIfMissing kind noun object).Makes (About [(kind, object.key)]) :=
    createIfMissing_makes ⟨_, .head _, rfl⟩ ⟨_, .head _, rfl⟩
  apply find?_of_about makes run
  exact fun member => different (List.mem_singleton.mp member)

/-- With a server that carries out its calls the object is there in the end. -/
theorem exists_run_createIfMissing (kind : Kind) (noun : String) (object : kind.Object)
    (before : Store) :
    ∃ events after, (createIfMissing kind noun object).Runs healthyServer before
      events (.returned (.ok ())) after := by
  cases present : before.find? kind object.key with
  | some stored => exact ⟨_, _, .call (serve_get_some present) (.done _ _)⟩
  | none =>
    have created : serve (.create kind object) before =
        (.ok (before.commit kind (object.created before.revision)).1,
          (before.commit kind (object.created before.revision)).2) := by
      simp [serve, present]
    exact ⟨_, _, .call (serve_get_none present) (.call created (.done _ _))⟩

end

namespace PostgresStrategy

/-! ### The credentials -/

/-- The POSTGRES_PASSWORD of a StatefulSet. -/
def passwordOf (set : StatefulSet) : Option String :=
  (set.spec.env.find? fun entry => entry.name = "POSTGRES_PASSWORD").map EnvVar.value

/-- The connection URI that holds a password. -/
def uri (claim : ResourceClaim) (password : String) : String :=
  "postgresql://" ++ "postgres" ++ ":" ++ password ++ "@" ++ serviceName claim ++ ":" ++
    "5432" ++ "/postgres"

def setKey (claim : ResourceClaim) : NamespacedName := keyBeside claim (statefulSetName claim)

def secretKey (claim : ResourceClaim) : NamespacedName := keyBeside claim (secretName claim)

/-- The password of the Secret, also the one in its URI, is that of the
StatefulSet. -/
def SamePassword (claim : ResourceClaim) (set : StatefulSet) (secret : Secret) : Prop :=
  ∃ password, passwordOf set = some password ∧
    secret.spec.data.get? "password" = some password ∧
    secret.spec.data.get? "uri" = some (uri claim password)

/-- If both objects of a claim exist, their passwords agree. -/
def Agree (claim : ResourceClaim) (store : Store) : Prop :=
  ∀ set secret, store.find? .statefulSet (setKey claim) = some set →
    store.find? .secret (secretKey claim) = some secret → SamePassword claim set secret

/-- An attempt draws the password of a StatefulSet that an earlier one left without
its Secret. -/
def Resumes (claim : ResourceClaim) (random : RandomText) (store : Store) : Prop :=
  ∀ password, generateRandomPassword random 16 = .ok password →
    ∀ set, store.find? .statefulSet (setKey claim) = some set →
      store.find? .secret (secretKey claim) = none → passwordOf set = some password

/-- The stores that calls of `Provision` for a claim lead to, from one with neither
its StatefulSet nor its Secret.  Every call may fail, and each call of `Provision`
meets the condition with its own random text. -/
inductive Attempts (claim : ResourceClaim) (condition : RandomText → Store → Prop) :
    Store → Prop where
  | fresh {store : Store} (noSet : store.find? .statefulSet (setKey claim) = none)
      (noSecret : store.find? .secret (secretKey claim) = none) :
      Attempts claim condition store
  | attempt {before after : Store} {random : RandomText}
      {events : List ApiEvent}
      {outcome : Outcome (Except GoError (Option ResourceClaimOutputs))}
      (earlier : Attempts claim condition before) (meets : condition random before)
      (run : (provision random claim).Runs apiServer before events outcome after) :
      Attempts claim condition after

/-! ### One attempt -/

section

variable {claim : ResourceClaim} {username password : String}
  {events : List ApiEvent} {before after : Store}

theorem publishSecret_effect
    (run : (publishSecret (secret claim username password)).Runs apiServer before
      events outcome after) :
    after.find? .statefulSet (setKey claim) = before.find? .statefulSet (setKey claim) ∧
      CreatedAtMost .secret (secret claim username password) before after ∧
      ∀ outputs, outcome = .returned (.ok outputs) →
        (after.find? .secret (secretKey claim)).isSome := by
  rcases run.orReturn_cases with
    ⟨_, early, late, middle, _, head, tail⟩ | ⟨failed, early, ended, head⟩
  · obtain ⟨created, present⟩ := createIfMissing_effect head
    have frame := createIfMissing_find?_of_ne head
      (show (Kind.statefulSet, setKey claim) ≠ _ from nofun)
    cases tail with
    | done => exact ⟨frame, created, fun _ _ => present rfl⟩
    | interrupted => exact ⟨frame, created, nofun⟩
  · have frame := createIfMissing_find?_of_ne head
      (show (Kind.statefulSet, setKey claim) ≠ _ from nofun)
    exact ⟨frame, (createIfMissing_effect head).1,
      fun outputs returned => absurd returned (failed outputs)⟩

/-- What `Provision` does once it has created the StatefulSet. -/
theorem createService_effect {context : GoError → GoError}
    (run : ((createService claim).orReturn context fun _ =>
      publishSecret (secret claim username password)).Runs apiServer before events outcome after) :
    after.find? .statefulSet (setKey claim) = before.find? .statefulSet (setKey claim) ∧
      CreatedAtMost .secret (secret claim username password) before after ∧
      ∀ outputs, outcome = .returned (.ok outputs) →
        (after.find? .secret (secretKey claim)).isSome := by
  rcases run.orReturn_cases with
    ⟨_, early, late, middle, _, head, tail⟩ | ⟨failed, early, ended, head⟩
  · obtain ⟨setFrame, created, present⟩ := publishSecret_effect tail
    have setBefore := createIfMissing_find?_of_ne head
      (show (Kind.statefulSet, setKey claim) ≠ _ from nofun)
    have secretBefore := createIfMissing_find?_of_ne head
      (show (Kind.secret, (secret claim username password).key) ≠ _ from nofun)
    exact ⟨setFrame.trans setBefore, created.framed secretBefore rfl, present⟩
  · have setFrame := createIfMissing_find?_of_ne head
      (show (Kind.statefulSet, setKey claim) ≠ _ from nofun)
    have secretFrame := createIfMissing_find?_of_ne head
      (show (Kind.secret, (secret claim username password).key) ≠ _ from nofun)
    exact ⟨setFrame, .inl secretFrame,
      fun outputs returned => absurd returned (failed outputs)⟩

end

/-- What one call of `Provision` does to the two objects, however it ends. -/
structure Attempted (claim : ResourceClaim) (password : String) (before after : Store) : Prop where
  set : CreatedAtMost .statefulSet (statefulSet claim "postgres" password) before after
  secret : CreatedAtMost .secret (secret claim "postgres" password) before after
  ordered : after.find? .secret (secretKey claim) = before.find? .secret (secretKey claim) ∨
    (after.find? .statefulSet (setKey claim)).isSome

section

variable {claim : ResourceClaim} {random : RandomText} {password : String}
  {events : List ApiEvent} {before after : Store}
  {outcome : Outcome (Except GoError (Option ResourceClaimOutputs))}

theorem provision_attempted (drawn : generateRandomPassword random 16 = .ok password)
    (run : (provision random claim).Runs apiServer before events outcome after) :
    Attempted claim password before after ∧
      ∀ outputs, outcome = .returned (.ok outputs) →
        (after.find? .secret (secretKey claim)).isSome := by
  simp only [provision, drawn] at run
  rcases run.orReturn_cases with
    ⟨_, early, late, middle, _, head, tail⟩ | ⟨failed, early, ended, head⟩
  · obtain ⟨created, present⟩ := createIfMissing_effect head
    obtain ⟨setFrame, secretCreated, secretPresent⟩ := createService_effect tail
    have secretBefore := createIfMissing_find?_of_ne head
      (show (Kind.secret, (secret claim "postgres" password).key) ≠ _ from nofun)
    have setPresent : (after.find? .statefulSet (setKey claim)).isSome := by
      rw [setFrame]
      exact present rfl
    exact ⟨⟨created.framed rfl setFrame, secretCreated.framed secretBefore rfl,
      .inr setPresent⟩, secretPresent⟩
  · have secretFrame := createIfMissing_find?_of_ne head
      (show (Kind.secret, (secret claim "postgres" password).key) ≠ _ from nofun)
    exact ⟨⟨(createIfMissing_effect head).1, .inl secretFrame, .inl secretFrame⟩,
      fun outputs returned => absurd returned (failed outputs)⟩

/-- Without a password `Provision` does nothing. -/
theorem provision_of_error {fault : GoError}
    (failed : generateRandomPassword random 16 = .error fault)
    (run : (provision random claim).Runs apiServer before events outcome after) :
    after = before := by
  simp only [provision, failed] at run
  cases run <;> rfl

/-- With a server that carries out its calls an attempt gets to its end. -/
theorem exists_run_provision (drawn : generateRandomPassword random 16 = .ok password)
    (claim : ResourceClaim) (before : Store) :
    ∃ events outputs after, (provision random claim).Runs healthyServer before
      events (.returned (.ok outputs)) after := by
  obtain ⟨_, first, setRun⟩ := exists_run_createIfMissing .statefulSet "statefulset"
    (statefulSet claim "postgres" password) before
  obtain ⟨_, second, serviceRun⟩ := exists_run_createIfMissing .service "service"
    (service claim) first
  obtain ⟨_, third, secretRun⟩ := exists_run_createIfMissing .secret "secret"
    (secret claim "postgres" password) second
  simp only [provision, drawn]
  exact ⟨_, _, third, setRun.orReturn (serviceRun.orReturn
    (secretRun.orReturn (.done _ third)))⟩

end

/-! ### All attempts -/

theorem passwordOf_of_spec (spec : set.spec = (statefulSet claim "postgres" password).spec) :
    passwordOf set = some password := by
  unfold passwordOf
  rw [spec]
  rfl

theorem secret_password (claim : ResourceClaim) (password : String) :
    (secret claim "postgres" password).spec.data.get? "password" = some password := by
  simp [secret, credentials, GoMap.get?_ofList]

theorem secret_uri (claim : ResourceClaim) (password : String) :
    (secret claim "postgres" password).spec.data.get? "uri" = some (uri claim password) := by
  unfold secret credentials uri
  rw [GoMap.get?_ofList]
  rfl

theorem samePassword_of_spec {stored : Secret} (same : passwordOf set = some password)
    (spec : stored.spec = (secret claim "postgres" password).spec) :
    SamePassword claim set stored := by
  refine ⟨password, same, ?_, ?_⟩
  · rw [spec, secret_password]
  · rw [spec, secret_uri]

theorem SamePassword.eq_of_spec {stored : Secret} (same : SamePassword claim set stored)
    (spec : stored.spec = (secret claim "postgres" password).spec) :
    passwordOf set = some password := by
  obtain ⟨other, setHas, secretHas, _⟩ := same
  rw [spec, secret_password] at secretHas
  rw [setHas, secretHas]

/-- The invariant of the attempts: the passwords agree, and there is no Secret
without a StatefulSet. -/
structure Settled (claim : ResourceClaim) (store : Store) : Prop where
  agree : Agree claim store
  ordered : (store.find? .secret (secretKey claim)).isSome →
    (store.find? .statefulSet (setKey claim)).isSome

section

variable {claim : ResourceClaim} {random : RandomText} {before after : Store}

theorem Attempted.agree (attempted : Attempted claim password before after)
    (settled : Settled claim before)
    (resumed : ∀ set, before.find? .statefulSet (setKey claim) = some set →
      before.find? .secret (secretKey claim) = none → passwordOf set = some password) :
    Agree claim after := by
  intro set secret foundSet foundSecret
  rcases attempted.secret.cases foundSecret with oldSecret | ⟨noSecret, secretSpec⟩
  · rcases attempted.set.cases foundSet with oldSet | ⟨noSet, _⟩
    · exact settled.agree set secret oldSet oldSecret
    · have present := settled.ordered (Option.isSome_of_eq_some oldSecret)
      rw [show before.find? .statefulSet (setKey claim) = none from noSet] at present
      cases present
  · refine samePassword_of_spec ?_ secretSpec
    rcases attempted.set.cases foundSet with oldSet | ⟨_, setSpec⟩
    · exact resumed set oldSet noSecret
    · exact passwordOf_of_spec setSpec

theorem Attempted.secretAfterSet (attempted : Attempted claim password before after)
    (settled : Settled claim before) (present : (after.find? .secret (secretKey claim)).isSome) :
    (after.find? .statefulSet (setKey claim)).isSome := by
  rcases attempted.ordered with same | there
  · rw [same] at present
    obtain ⟨set, found⟩ := Option.isSome_iff_exists.mp (settled.ordered present)
    rcases attempted.set with unchanged | ⟨_, stored, finds, _⟩
    · exact Option.isSome_of_eq_some (Eq.trans unchanged found)
    · exact Option.isSome_of_eq_some finds
  · exact there

/-- The step: an attempt that resumes an earlier one keeps the invariant. -/
theorem Settled.provision (settled : Settled claim before) (resumes : Resumes claim random before)
    (run : (provision random claim).Runs apiServer before events outcome after) :
    Settled claim after := by
  cases drawn : generateRandomPassword random 16 with
  | error fault =>
    rw [provision_of_error drawn run]
    exact settled
  | ok password =>
    obtain ⟨attempted, _⟩ := provision_attempted drawn run
    exact ⟨attempted.agree settled (resumes password drawn), attempted.secretAfterSet settled⟩

/-- The run: so do all of them, from a claim that has neither object. -/
theorem Attempts.settled {store : Store} (reached : Attempts claim (Resumes claim) store) :
    Settled claim store := by
  induction reached with
  | fresh noSet noSecret =>
    constructor
    · intro set secret foundSet _
      rw [noSet] at foundSet
      cases foundSet
    · intro present
      rw [noSecret] at present
      cases present
  | attempt _ meets run settled => exact settled.provision meets run

/-- An attempt that completes on a StatefulSet without a Secret publishes its own
password. -/
theorem resumes_of_agree (keeps : ∀ {events outcome after},
      (provision random claim).Runs apiServer before events outcome after →
        Agree claim after) : Resumes claim random before := by
  intro password drawn set foundSet noSecret
  obtain ⟨events, outputs, after, healthyRun⟩ := exists_run_provision drawn claim before
  have run := runs_apiServer_of_healthyServer healthyRun
  obtain ⟨attempted, present⟩ := provision_attempted drawn run
  obtain ⟨secret, foundSecret⟩ := Option.isSome_iff_exists.mp (present outputs rfl)
  have kept : after.find? .statefulSet (setKey claim) = some set := by
    rcases attempted.set with same | ⟨absent, _⟩
    · exact Eq.trans same foundSet
    · rw [show before.find? .statefulSet (setKey claim) = none from absent] at foundSet
      cases foundSet
  rcases attempted.secret.cases foundSecret with old | ⟨_, spec⟩
  · rw [show before.find? .secret (secretKey claim) = some secret from old] at noSecret
    cases noSecret
  · exact (keeps run set secret kept foundSecret).eq_of_spec spec

end

/-- While every attempt resumes the earlier ones, the passwords agree; and in each
store on the way, this is what it takes for the next attempt to keep them so,
however that one ends. -/
theorem agree_of_attempts {claim : ResourceClaim} {store : Store}
    (reached : Attempts claim (Resumes claim) store) :
    Agree claim store ∧
      ∀ random, Resumes claim random store ↔
        ∀ events outcome after,
          (provision random claim).Runs apiServer store events outcome after →
            Agree claim after := by
  refine ⟨reached.settled.agree, fun random => ⟨?_, ?_⟩⟩
  · intro resumes events outcome after run
    exact (reached.settled.provision resumes run).agree
  · intro keeps
    exact resumes_of_agree fun run => keeps _ _ _ run

/-! ### Two attempts -/

/-- The store after a call of `Provision` that drew this text, with the faults of a
script. -/
@[irreducible] def afterAttempt (claim : ResourceClaim) (random : String)
    (script : List (Option GoError)) (store : Store) : Store :=
  ((provision (.ok random) claim).execute serve script store).2.2

theorem Attempts.execute {condition : RandomText → Store → Prop} {store : Store}
    (earlier : Attempts claim condition store) (random : String)
    (meets : condition (.ok random) store) (script : List (Option GoError)) :
    Attempts claim condition (afterAttempt claim random script store) := by
  unfold afterAttempt
  exact .attempt earlier meets (runs_execute serve _ script store)

/-- The API server does not answer in time. -/
def timeout : GoError := { text := "context deadline exceeded" }

/-- The first attempt fails to create the StatefulSet and leaves nothing behind, the
second one draws another password and completes. -/
theorem agree_of_attempts_retried :
    let database := claimNamed "db" "postgres"
    let store := afterAttempt database "second"
      [] (afterAttempt database "first" [none, some timeout] .empty)
    (store.find? .statefulSet (setKey database)).isSome = true ∧
      (store.find? .secret (secretKey database)).isSome = true ∧
      Attempts database (Resumes database) store ∧ Agree database store := by
  intro database store
  have noSet : Store.empty.find? .statefulSet (setKey database) = none := rfl
  have begun : Attempts database (Resumes database) .empty := .fresh noSet rfl
  have first := begun.execute "first" (fun _ _ set found => by
    rw [noSet] at found
    cases found) [none, some timeout]
  have stillNoSet : (afterAttempt database "first" [none, some timeout] .empty).find?
      .statefulSet (setKey database) = none := by decide +kernel
  have second : Attempts database (Resumes database) store :=
    first.execute "second" (fun _ _ set found => by
      rw [stillNoSet] at found
      cases found) []
  exact ⟨by decide +kernel, by decide +kernel, second, (agree_of_attempts second).1⟩

/-- The first attempt creates the StatefulSet and fails at the Service; the second
one finds the StatefulSet, draws another password and publishes that. -/
theorem disagree_after_failed_service :
    let database := claimNamed "db" "postgres"
    let store := afterAttempt database "second"
      [] (afterAttempt database "first" [none, none, none, some timeout] .empty)
    Attempts database (fun _ _ => True) store ∧ ¬ Agree database store := by
  intro database store
  have begun : Attempts database (fun _ _ => True) .empty := .fresh rfl rfl
  have first := begun.execute "first" trivial
    [none, none, none, some timeout]
  refine ⟨first.execute "second" trivial [], fun agree => ?_⟩
  have inSet : (store.find? .statefulSet (setKey database)).bind passwordOf =
      some "first" := by decide +kernel
  have inSecret : (store.find? .secret (secretKey database)).bind
      (fun secret => secret.spec.data.get? "password") = some "second" := by
    decide +kernel
  obtain ⟨set, foundSet, setHas⟩ := Option.bind_eq_some_iff.mp inSet
  obtain ⟨secret, foundSecret, secretHas⟩ := Option.bind_eq_some_iff.mp inSecret
  obtain ⟨password, setSame, secretSame, _⟩ := agree set secret foundSet foundSecret
  have equal : "first" = "second" := by
    rw [setHas] at setSame
    rw [secretHas] at secretSame
    exact Option.some.inj (setSame.trans secretSame.symm)
  simp at equal

end PostgresStrategy

end ScoreOrchestrator.Provisioner
