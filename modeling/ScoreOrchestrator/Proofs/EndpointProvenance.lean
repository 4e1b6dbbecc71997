/-
Module: Proofs.EndpointProvenance
Purpose: Where the endpoint of a Workload comes from, over every interleaving of
  pipeline, mirror and registrar runs with the writes of runtimes, behind caches
  that lag.
-/
import ScoreOrchestrator.Proofs.ReadyRule

namespace ScoreOrchestrator.Controller

open Foundation Program

/-!
Two controllers write the status of a Workload.  The mirror sends the endpoint as a
field of its own, if at all.  The pipeline sends back a whole status, with the
endpoint that it read at the start; the version check makes sure that this is the
endpoint still stored.
-/

variable {cluster : CachedStore} {workload held : Workload} {context : PhaseContext} {α : Type}
  {history : List (EventOn CachedStore)} {isValidURL : String → Bool} {answer : Type}

/-- An exposure for the Workload under a key has put this URL first, now or in an
earlier store. -/
def Published (cluster : CachedStore) (key : NamespacedName) (url : String) : Prop :=
  ∃ seen ∈ cluster.current :: cluster.past,
    ∃ exposure ∈ (seen.table .workloadExposure).rows, exposedWorkload exposure = key ∧
      exposure.status.exposures.head?.map ExposureEntry.url = some url

/-- The endpoint of a Workload, if it has one, is a valid URL that was published for
it. -/
def Provenance (isValidURL : String → Bool) (cluster : CachedStore) (workload : Workload) : Prop :=
  ∀ url, workload.status.endpoint = some url →
    isValidURL url = true ∧ Published cluster workload.key url

/-- The endpoint stored under a key. -/
def endpointAt (key : NamespacedName) (store : Store) : Option (Option String) :=
  (store.find? .workload key).map fun workload => workload.status.endpoint

/-! ### The interleavings -/

/-- Any number of workers of each controller. -/
inductive EndpointActor where
  | pipeline (worker : Nat)
  | mirror (worker : Nat)
  | registrar (worker : Nat)
deriving DecidableEq, Repr

/-- The programs each worker may start. -/
def endpointPrograms (isValidURL : String → Bool) : EndpointActor → Client Unit → Prop
  | .pipeline _, program => ∃ settings key, program = (reconcileWorkload settings key).discard
  | .mirror _, program =>
    ∃ settings key, settings.isValidURL = isValidURL ∧
      program = (reconcileExposure settings key).discard
  | .registrar _, program =>
    ∃ runtimeClass key, program = (registerExposure runtimeClass key).discard

/-- Everybody else: runtimes publish what they like, users edit, create and delete.
They write new versions and leave the endpoints of Workloads alone. -/
structure OthersWrite (before after : CachedStore) : Prop where
  past : after.past = before.current :: before.past
  evolves : before.current.Evolves .workload after.current
  endpoints : ∀ workload ∈ (after.current.table .workload).rows,
    workload.status.endpoint = none ∨
      ∃ old ∈ (before.current.table .workload).rows, old.key = workload.key ∧
        old.status.endpoint = workload.status.endpoint

def endpointRules (isValidURL : String → Bool) : Rules EndpointActor Call GoError CachedStore where
  service _ := laggingServer
  starts := endpointPrograms isValidURL
  admits _ _ _ := True
  environment := OthersWrite

/-- A cluster in which no Workload has an endpoint yet. -/
structure NoEndpoints (cluster : CachedStore) : Prop where
  past : cluster.past = []
  endpoints : ∀ workload ∈ (cluster.current.table .workload).rows,
    workload.status.endpoint = none

/-! ### The invariant -/

/-- Every endpoint is explained, and every version is newer than what was seen
before. -/
structure Explained (isValidURL : String → Bool) (cluster : CachedStore) : Prop where
  evolves : ∀ seen ∈ cluster.past, seen.Evolves .workload cluster.current
  provenance : ∀ workload ∈ (cluster.current.table .workload).rows,
    Provenance isValidURL cluster workload

theorem Explained.of_noEndpoints (fresh : NoEndpoints cluster) : Explained isValidURL cluster where
  evolves seen member := by
    rw [fresh.past] at member
    cases member
  provenance workload member url endpoint := by
    rw [fresh.endpoints workload member] at endpoint
    cases endpoint

/-- A version read from any store so far is a known one. -/
theorem Explained.knows (explained : Explained isValidURL cluster) {seen : Store}
    (known : seen ∈ cluster.current :: cluster.past)
    (member : workload ∈ (seen.table .workload).rows) :
    cluster.current.Knows .workload workload := by
  rcases List.mem_cons.mp known with rfl | past
  · exact .of_mem member
  · exact (Store.Knows.of_mem member).of_evolves (explained.evolves seen past)

/-- How the cluster moves on. -/
structure Moves (isValidURL : String → Bool) (before after : CachedStore) : Prop where
  seen : before.current :: before.past ⊆ after.current :: after.past
  evolves : before.current.Evolves .workload after.current
  explained : Explained isValidURL before → Explained isValidURL after

section

variable {isValidURL : String → Bool} {before middle after : CachedStore}

theorem Moves.refl (isValidURL : String → Bool) (cluster : CachedStore) :
    Moves isValidURL cluster cluster :=
  ⟨List.Subset.refl _, .refl _ _, id⟩

theorem Moves.trans (early : Moves isValidURL before middle)
    (late : Moves isValidURL middle after) : Moves isValidURL before after :=
  ⟨List.Subset.trans early.seen late.seen, early.evolves.trans late.evolves,
    late.explained ∘ early.explained⟩

/-- One write: each endpoint is kept, cleared, or explained by what was published
before. -/
theorem Moves.of_write (past : after.past = before.current :: before.past)
    (evolves : before.current.Evolves .workload after.current)
    (endpoints : Explained isValidURL before →
      ∀ workload ∈ (after.current.table .workload).rows,
        Provenance isValidURL before workload) : Moves isValidURL before after := by
  have seen : before.current :: before.past ⊆ after.current :: after.past := by
    rw [past]
    exact List.subset_cons_self _ _
  refine ⟨seen, evolves, fun explained => ⟨?_, ?_⟩⟩
  · intro earlier member
    rw [past] at member
    rcases List.mem_cons.mp member with rfl | old
    · exact evolves
    · exact (explained.evolves earlier old).trans evolves
  · intro workload member url endpoint
    obtain ⟨valid, found, known, exposure⟩ := endpoints explained workload member url endpoint
    exact ⟨valid, found, seen known, exposure⟩

/-- A write that keeps each endpoint or clears it. -/
theorem Moves.of_kept (past : after.past = before.current :: before.past)
    (evolves : before.current.Evolves .workload after.current)
    (endpoints : ∀ workload ∈ (after.current.table .workload).rows,
      workload.status.endpoint = none ∨
        ∃ old ∈ (before.current.table .workload).rows, old.key = workload.key ∧
          old.status.endpoint = workload.status.endpoint) : Moves isValidURL before after := by
  apply Moves.of_write past evolves
  intro explained workload member url endpoint
  rcases endpoints workload member with cleared | ⟨old, oldMember, key, same⟩
  · rw [cleared] at endpoint
    cases endpoint
  · rw [← key]
    exact explained.provenance old oldMember url (same.trans endpoint)

end

/-! ### What each call does to it -/

/-- The stored endpoints are what they were. -/
def EndpointsKept (before after : CachedStore) : Prop :=
  ∀ key, endpointAt key after.current = endpointAt key before.current

section

variable {isValidURL : String → Bool} {before after : CachedStore} {answer : Type}
  {request : Call answer} {reply : Except GoError answer}

/-- A call that leaves the status of Workloads alone. -/
theorem Moves.of_quiet (quiet : request.leavesStatus .workload = true)
    (served : laggingServer request before reply after) : Moves isValidURL before after := by
  cases reads : request.isRead with
  | true =>
    rw [(laggingServer_read reads served).2]
    exact .refl _ before
  | false =>
    obtain ⟨served, past⟩ := laggingServer_write reads served
    apply Moves.of_kept past (apiServer_evolves .workload served)
    intro workload member
    obtain ⟨old, oldMember, key, status⟩ := apiServer_keepsEachStatus quiet served workload member
    exact .inr ⟨old, oldMember, key, by rw [status]⟩

/-- Such a call sends no status, so that it also meets the other half of what a
controller promises. -/
theorem moves_of_leavesStatus (quiet : request.leavesStatus .workload = true)
    (served : laggingServer request before reply after) :
    Moves isValidURL before after ∧
      ((request.sentStatus .workload).isSome → EndpointsKept before after) := by
  refine ⟨.of_quiet quiet served, fun sends => ?_⟩
  rw [Call.sentStatus_of_leavesStatus quiet] at sends
  cases sends

end

section

variable {isValidURL : String → Bool} {before after : CachedStore}

/-- A status update of a known version, which sends its endpoint back. -/
theorem moves_of_updateStatus {sent : Workload} (knows : before.current.Knows .workload workload)
    (version : sent.metadata = workload.metadata)
    (endpoint : sent.status.endpoint = workload.status.endpoint) {reply : Except GoError Workload}
    (served : laggingServer (.updateStatus .workload sent) before reply after) :
    Moves isValidURL before after ∧ EndpointsKept before after := by
  obtain ⟨served, past⟩ := laggingServer_write rfl served
  have evolves := apiServer_evolves .workload served
  cases reply with
  | error fault =>
    have same := apiServer_of_error served
    refine ⟨.of_kept past evolves fun stored member => ?_, fun key => by rw [same]⟩
    rw [same] at member
    exact .inr ⟨stored, member, rfl, rfl⟩
  | ok value =>
    obtain ⟨stored, written⟩ := apiServer_statusWritten served
    obtain ⟨member, key⟩ := Store.find?_eq_some.mp written.found
    -- the version check: what is stored is what the run has read
    have read : stored = workload := by
      apply knows.same stored member
      · rw [key]
        show Resource.key sent = _
        unfold Resource.key
        rw [version]
      · rw [← written.version, version]
    have sentEndpoint : value.status.endpoint = stored.status.endpoint := by
      rw [written.status, endpoint, read]
    have kept : EndpointsKept before after := by
      intro other
      unfold endpointAt
      by_cases same : other = sent.key
      · rw [same, written.finds, written.found]
        exact congrArg some sentEndpoint
      · rw [written.frame other same]
    refine ⟨.of_kept past evolves fun object objectMember => .inr ?_, kept⟩
    have found := kept object.key
    unfold endpointAt at found
    rw [Store.find?_eq_some.mpr ⟨objectMember, rfl⟩] at found
    obtain ⟨old, oldFound, same⟩ := Option.map_eq_some_iff.mp found.symm
    obtain ⟨oldMember, oldKey⟩ := Store.find?_eq_some.mp oldFound
    exact ⟨old, oldMember, oldKey, same⟩

/-- The patch of a mirror that has read this exposure. -/
theorem Moves.of_patchStatus {settings : MirrorSettings} {exposure : WorkloadExposure}
    {reply : Except GoError Workload} (published : ∀ url, newEndpoint settings exposure = some url →
      settings.isValidURL url = true ∧ Published before workload.key url)
    (served : laggingServer (.patchStatus .workload workload
      (mirrorStatus settings workload exposure).1) before reply after) :
    Moves settings.isValidURL before after := by
  obtain ⟨served, past⟩ := laggingServer_write rfl served
  apply Moves.of_write past (apiServer_evolves .workload served)
  intro explained next member
  rcases (apiServer_step served).of_mem member with old | ⟨_, ⟨stored, found, rfl⟩, rfl⟩
  · exact explained.provenance next old
  · obtain ⟨storedMember, key⟩ := Store.find?_eq_some.mp found
    have origin := explained.provenance stored storedMember
    intro url endpoint
    have merged : mergeField workload.status.endpoint (newEndpoint settings exposure)
        stored.status.endpoint = some url := endpoint
    unfold mergeField at merged
    show settings.isValidURL url = true ∧ Published before stored.key url
    split at merged
    · exact origin url merged
    · rw [key]
      exact published url merged

end

/-! ### The phases carry the endpoint along -/

/-- The version and the endpoint of a Workload are those of another one. -/
structure CarriesEndpoint (workload held : Workload) : Prop where
  metadata : held.metadata = workload.metadata
  endpoint : held.status.endpoint = workload.status.endpoint

/-- Conditions are all that a phase sets besides the claims. -/
theorem CarriesEndpoint.setWorkloadCondition (carried : CarriesEndpoint workload held)
    (type : String) (now : Time) (holds : Bool) (reason message : String) :
    CarriesEndpoint workload (setWorkloadCondition type now held holds reason message) :=
  ⟨carried.metadata, carried.endpoint⟩

theorem CarriesEndpoint.computeFinalStatus (carried : CarriesEndpoint workload held)
    (runtimeNow readyNow : Time) (plan : Option WorkloadPlan) :
    CarriesEndpoint workload (computeFinalStatus runtimeNow readyNow held plan) := by
  cases plan <;> exact ⟨carried.metadata, carried.endpoint⟩

/-- The calls of the phases: those that leave statuses alone, and the status update
that sends the endpoint back. -/
def SendsBack (workload : Workload) ⦃answer : Type⦄ (request : Call answer) : Prop :=
  request.leavesStatus .workload = true ∨
    ∃ sent, request.sentStatus .workload = some sent ∧ CarriesEndpoint workload sent

theorem ensurePlan_carries (carried : CarriesEndpoint workload held) (settings : Settings)
    (now : Time) (claims : List ResourceClaim) (aggregation : ClaimAggregation) :
    (ensurePlan settings now held claims aggregation).Yields fun returned =>
      CarriesEndpoint workload returned.1 := by
  unfold ensurePlan
  split
  · split
    · exact carried.setWorkloadCondition _ _ _ _ _
    · refine Yields.bind_of_forall fun upserted => ?_
      cases upserted with
      | ok _ => exact carried
      | error fault =>
        dsimp only
        split
        · exact carried.setWorkloadCondition _ _ _ _ _
        · exact carried
  · exact carried

section

variable (carried : CarriesEndpoint workload context.workload)
include carried

theorem executeClaimPhase_carries (settings : Settings) :
    (executeClaimPhase settings context).Yields fun returned =>
      CarriesEndpoint workload returned.1.workload := by
  refine Yields.bind_of_forall fun ensured => ?_
  cases ensured with
  | error fault => exact carried
  | ok _ =>
    refine Yields.bind_of_forall fun listed => ?_
    cases listed with
    | error fault => exact carried
    | ok claims => exact ⟨carried.metadata, carried.endpoint⟩

theorem executePlanPhase_carries (settings : Settings) :
    (executePlanPhase settings context).Yields fun returned =>
      CarriesEndpoint workload returned.1.workload := by
  apply Yields.bind
  refine (ensurePlan_carries carried settings _ _ _).mono ?_
  rintro ⟨held, ensured⟩ carried
  cases ensured with
  | error fault =>
    dsimp only
    split <;> exact carried
  | ok _ => exact Yields.bind_of_forall fun _ => carried

theorem executeStatusPhase_carries (settings : Settings) :
    (executeStatusPhase settings context).Makes (SendsBack workload) ∧
      (executeStatusPhase settings context).Yields fun returned =>
        CarriesEndpoint workload returned.1.workload := by
  have final := carried.computeFinalStatus (settings.clock 3) (settings.clock 4)
    context.plan
  refine ⟨⟨.inr ⟨_, rfl, final⟩, fun reply => ?_⟩, fun reply => ?_⟩
  · cases reply with
    | ok _ => trivial
    | error fault =>
      simp only [done_bind, pure_eq]
      split <;> trivial
  · cases reply with
    | ok _ => exact final
    | error fault =>
      simp only [done_bind, pure_eq]
      split <;> exact final

end

/-- Every phase sends back at most the endpoint it was handed, and hands it on. -/
theorem normalPhases_carry (settings : Settings) (workload : Workload) :
    ∀ phase ∈ normalPhases settings, ∀ context, CarriesEndpoint workload context.workload →
      (phase.execute context).Makes (SendsBack workload) ∧
        (phase.execute context).Yields fun returned =>
          CarriesEndpoint workload returned.1.workload := by
  have calls : PhaseCalls (SendsBack workload) := .of_leavesStatus fun _ _ quiet => .inl quiet
  intro phase member context carried
  simp only [normalPhases, List.mem_cons, List.not_mem_nil, or_false] at member
  rcases member with rfl | rfl | rfl | rfl
  · exact ⟨trivial, carried.setWorkloadCondition _ _ _ _ _⟩
  · exact ⟨executeClaimPhase_makes calls.claimCalls calls.reads settings context,
      executeClaimPhase_carries carried settings⟩
  · exact ⟨executePlanPhase_makes calls settings context, executePlanPhase_carries carried settings⟩
  · exact executeStatusPhase_carries carried settings

theorem SendsBack.moves (isValidURL : String → Bool) {request : Call answer}
    (call : SendsBack workload request) {before after : CachedStore} {reply : Except GoError answer}
    (knows : before.current.Knows .workload workload)
    (served : laggingServer request before reply after) :
    Moves isValidURL before after ∧
      ((request.sentStatus .workload).isSome → EndpointsKept before after) := by
  rcases call with quiet | ⟨sent, sends, carried⟩
  · exact moves_of_leavesStatus quiet served
  · obtain ⟨rfl, rfl⟩ := Call.eq_updateStatus sends
    exact (moves_of_updateStatus knows carried.metadata carried.endpoint
      served).imp_right fun kept _ => kept

/-! ### Every interleaving -/

/-- The terms on which every controller works. -/
def endpointContract (isValidURL : String → Bool) : Contract Call GoError CachedStore where
  service := laggingServer
  rely := Moves isValidURL
  rely_refl := .refl isValidURL
  rely_trans := .trans
  admits _ _ := True
  guarantee _ event := Moves isValidURL event.before event.after ∧
    ((event.request.sentStatus .workload).isSome →
      EndpointsKept event.before event.after)

/-- The rule for a read: some store so far answers, and nothing moves. -/
theorem safe_read {request : Call answer} (reads : request.isRead = true)
    {next : Except GoError answer → Client α}
    (rest : ∀ before, Moves isValidURL cluster before → ∀ reply,
      (∃ seen ∈ before.current :: before.past, apiServer request seen reply seen) →
        Safe (endpointContract isValidURL) (fun _ _ _ => True) (next reply)
          ({ request, reply, before, after := before } :: history) before) :
    Safe (endpointContract isValidURL) (fun _ _ _ => True)
      (.call request next) history cluster := by
  intro before moved reply after served _
  have kept : Moves isValidURL before after ∧ _ :=
    moves_of_leavesStatus (Call.leavesStatus_of_isRead reads _) served
  have ⟨answered, same⟩ := laggingServer_read reads served
  subst same
  exact ⟨kept, rest _ moved reply answered⟩

/-- The rule for a write that leaves the status of Workloads alone. -/
theorem safe_write {request : Call answer} (writes : request.isRead = false)
    (quiet : request.leavesStatus .workload = true) {next : Except GoError answer → Client α}
    (rest : ∀ before after reply, apiServer request before.current reply after.current →
      Safe (endpointContract isValidURL) (fun _ _ _ => True) (next reply)
        ({ request, reply, before, after } :: history) after) :
    Safe (endpointContract isValidURL) (fun _ _ _ => True)
      (.call request next) history cluster := by
  intro before _ reply after served _
  exact ⟨moves_of_leavesStatus quiet served,
    rest before after reply (laggingServer_write writes served).1⟩

/-- A program that leaves the status of Workloads alone. -/
theorem safe_of_quiet {program : Client α}
    (makes : program.Makes fun _ request => request.leavesStatus .workload = true)
    (history : List (EventOn CachedStore)) (cluster : CachedStore) :
    Safe (endpointContract isValidURL) (fun _ _ _ => True) program history
      cluster := by
  refine (Safe.of_makes makes ?_).mono fun _ _ _ _ => trivial
  intro answer request quiet history before reply after served _
  have moved : Moves isValidURL before after ∧ _ := moves_of_leavesStatus quiet served
  exact ⟨moved, moved.1⟩

/-- The phases, from a Workload whose version is known. -/
theorem executeNormalPipeline_explained (settings : Settings)
    (knows : cluster.current.Knows .workload workload) :
    Safe (endpointContract isValidURL) (fun _ _ _ => True)
      (executeNormalPipeline (normalPhases settings) { workload }) history cluster := by
  have makes : (executeNormalPipeline (normalPhases settings) { workload }).Makes
      (SendsBack workload) :=
    executeNormalPipeline_makes_of (normalPhases_carry settings workload) ⟨rfl, rfl⟩
  refine (Safe.of_makes_while
    (fun cluster : CachedStore => cluster.current.Knows .workload workload) ?_ makes
    knows ?_).mono fun _ _ _ _ => trivial
  · exact fun moved known => known.of_evolves moved.evolves
  · intro answer request call history before reply after known served _
    have moved := call.moves isValidURL known served
    exact ⟨moved, known.of_evolves moved.1.evolves⟩

theorem reconcileWorkload_explained (settings : Settings) (key : NamespacedName)
    (explained : Explained isValidURL cluster) :
    Safe (endpointContract isValidURL) (fun _ _ _ => True)
      (reconcileWorkload settings key) [] cluster := by
  have ended : ∀ {result : Except GoError ReconcileResult} {history cluster},
      Safe (endpointContract isValidURL) (fun _ _ _ => True) (.done result)
        history cluster := fun _ _ => trivial
  refine safe_read rfl fun before moved reply ⟨seen, known, got⟩ => ?_
  simp only [done_bind]
  cases reply with
  | error fault =>
    dsimp only
    split <;> exact ended
  | ok workload =>
    have member := (Store.find?_eq_some.mp (apiServer_get_ok got).1).1
    have knows := (moved.explained explained).knows known member
    simp only [executePipeline]
    split
    · exact safe_of_quiet (executeDeletionPipeline_makes
        (.of_leavesStatus fun _ _ quiet => quiet) settings workload) _ _
    · unfold ensureFinalizer
      split
      · exact executeNormalPipeline_explained settings knows
      · -- the update answers with the version it stores
        refine safe_write rfl rfl fun before after reply served => ?_
        cases reply with
        | error fault => exact ended
        | ok updated =>
          exact executeNormalPipeline_explained settings (apiServer_update_knows served)

theorem reconcileExposure_explained (settings : MirrorSettings) (key : NamespacedName)
    (cluster : CachedStore) :
    Safe (endpointContract settings.isValidURL) (fun _ _ _ => True)
      (reconcileExposure settings key) [] cluster := by
  have ended : ∀ {result : Except GoError ReconcileResult} {history cluster},
      Safe (endpointContract settings.isValidURL) (fun _ _ _ => True)
        (.done result) history cluster := fun _ _ => trivial
  refine safe_read rfl fun before _ reply ⟨seen, known, got⟩ => ?_
  cases reply with
  | error fault => exact ended
  | ok exposure =>
    have read := (Store.find?_eq_some.mp (apiServer_get_ok got).1).1
    refine safe_read rfl fun later moved reply ⟨seenLater, _, gotWorkload⟩ => ?_
    simp only [done_bind]
    cases reply with
    | error fault => exact ended
    | ok workload =>
      have keys := (Store.find?_eq_some.mp (apiServer_get_ok gotWorkload).1).2
      simp only [patchMirrored]
      split
      · exact ended
      · split
        · intro last movedLast reply after served _
          have published : ∀ url, newEndpoint settings exposure = some url →
              settings.isValidURL url = true ∧ Published last workload.key url := by
            intro url asked
            obtain ⟨valid, first⟩ := newEndpoint_eq_some asked
            exact ⟨valid, seen, movedLast.seen (moved.seen known), exposure, read,
              keys.symm, first⟩
          refine ⟨⟨.of_patchStatus published served,
            fun sends => absurd sends Bool.false_ne_true⟩, ?_⟩
          cases reply <;> exact ended
        · exact ended

theorem registerExposure_explained (runtimeClass : String) (key : NamespacedName)
    (cluster : CachedStore) :
    Safe (endpointContract isValidURL) (fun _ _ _ => True)
      (registerExposure runtimeClass key) [] cluster :=
  safe_of_quiet (registerExposure_makes
    (fun _ _ reads => Call.leavesStatus_of_isRead reads _) runtimeClass
    (fun _ => rfl) (fun _ _ => rfl) key) [] cluster

/-- The rely/guarantee proof. -/
def endpointsVerified (isValidURL : String → Bool) :
    Verified (endpointRules isValidURL) NoEndpoints where
  invariant := Explained isValidURL
  rely _ := Moves isValidURL
  rely_refl _ := .refl isValidURL
  rely_trans _ _ _ _ := .trans
  guarantee _ := (endpointContract isValidURL).guarantee
  invariant_initial := .of_noEndpoints
  invariant_environment explained wrote :=
    (Moves.of_kept wrote.past wrote.evolves wrote.endpoints).explained explained
  invariant_exchange explained kept := kept.1.explained explained
  rely_environment _ wrote := .of_kept wrote.past wrote.evolves wrote.endpoints
  rely_exchange _ _ kept := kept.1
  safe {actor program cluster} starts explained := by
    cases actor with
    | pipeline worker =>
      obtain ⟨settings, key, rfl⟩ := starts
      exact (reconcileWorkload_explained settings key explained).discard
    | mirror worker =>
      obtain ⟨settings, key, rfl, rfl⟩ := starts
      exact (reconcileExposure_explained settings key cluster).discard
    | registrar worker =>
      obtain ⟨runtimeClass, key, rfl⟩ := starts
      exact (registerExposure_explained runtimeClass key cluster).discard

/-- Endpoint provenance: whatever the interleaving, the endpoint of a Workload is nil,
or a valid URL that some exposure for this Workload has published first, and no status
update of a pipeline changes a stored endpoint. -/
theorem endpoint_provenance {isValidURL : String → Bool}
    {system : System EndpointActor Call GoError CachedStore}
    (reached : Reachable (endpointRules isValidURL) NoEndpoints system) :
    (∀ workload ∈ (system.state.current.table .workload).rows,
      workload.status.endpoint = none ∨
        ∃ url, workload.status.endpoint = some url ∧ isValidURL url = true ∧
          Published system.state workload.key url) ∧
      ∀ worker history event next,
        System.Step (endpointRules isValidURL) system
          (.exchange (.pipeline worker) history event) next →
        (event.request.sentStatus .workload).isSome →
          ∀ key, endpointAt key event.after.current = endpointAt key event.before.current := by
  refine ⟨fun workload member => ?_, fun worker history event next moved sends => ?_⟩
  · have origin := ((endpointsVerified isValidURL).holds_of_reachable
      reached).invariant.provenance workload member
    cases endpoint : workload.status.endpoint with
    | none => exact .inl rfl
    | some url => exact .inr ⟨url, rfl, origin url endpoint⟩
  · exact ((endpointsVerified isValidURL).guarantee_of_reachable reached moved).2 sends

/-! ### A mirror run and a pipeline run -/

/-- The server when every cache is up to date. -/
def serveFresh {answer : Type} (request : Call answer) (cluster : CachedStore) :
    Except GoError answer × CachedStore :=
  let (reply, current) := serve request cluster.current
  (reply,
    if request.isRead then cluster
    else { current, past := cluster.current :: cluster.past })

theorem laggingServer_of_serveFresh {request : Call answer} {before after : CachedStore}
    {reply : Except GoError answer} (served : serveFresh request before = (reply, after)) :
    laggingServer request before reply after := by
  unfold laggingServer
  cases served
  split
  next reads =>
    refine ⟨⟨before.current, .head _, .inl ?_⟩, rfl⟩
    rw [Prod.ext_iff]
    exact ⟨rfl, serve_of_isRead reads before.current⟩
  · exact ⟨.inl rfl, rfl⟩

/-- The cluster after an undisturbed run. -/
@[irreducible] def afterFresh (program : Client Unit) (cluster : CachedStore) : CachedStore :=
  (program.execute serveFresh [] cluster).2.2

theorem runs_afterFresh (program : Client Unit) (cluster : CachedStore) :
    program.Runs laggingServer cluster (program.execute serveFresh [] cluster).1
      (program.execute serveFresh [] cluster).2.1 (afterFresh program cluster) := by
  unfold afterFresh
  exact (runs_execute_reliable serveFresh program cluster).mono
    fun _ _ _ _ _ served => laggingServer_of_serveFresh served

/-- A Workload without a status, and an exposure of it that publishes a URL. -/
@[irreducible] def publishedCluster : CachedStore where
  current :=
    (Store.empty.insert .workload
      { metadata := { name := "web", ns := "default", uid := "u1", generation := 1 }
        spec := {}
        status := default }).insert .workloadExposure
      { metadata := { name := "web", ns := "default" }
        spec :=
          { workloadRef := { name := "web", ns := none, uid := "u1" }
            observedWorkloadGeneration := 1
            runtimeClass := "kubernetes" }
        status := { exposures := [{ url := "http://web" }] } }
  past := []

theorem noEndpoints_publishedCluster : NoEndpoints publishedCluster := by
  unfold publishedCluster
  exact ⟨rfl, by decide +kernel⟩

theorem reachable_afterFresh (reached : Reachable (endpointRules isValidURL) NoEndpoints
      { state := cluster, thread := fun _ => none }) {actor : EndpointActor} {program : Client Unit}
    (starts : endpointPrograms isValidURL actor program) :
    Reachable (endpointRules isValidURL) NoEndpoints
      { state := afterFresh program cluster, thread := fun _ => none } :=
  reached.run actor rfl starts (runs_afterFresh program cluster)
    (.of_forall (fun _ _ => trivial) _ _)

/-- The cluster once the URL has been mirrored. -/
@[irreducible] def mirroredCluster : CachedStore :=
  afterFresh (reconcileExposure quietMirror webKey).discard publishedCluster

theorem reachable_mirroredCluster :
    Reachable (endpointRules quietMirror.isValidURL) NoEndpoints
      { state := mirroredCluster, thread := fun _ => none } := by
  have initial : Reachable (endpointRules quietMirror.isValidURL) NoEndpoints
      { state := publishedCluster, thread := fun _ => none } :=
    .initial noEndpoints_publishedCluster
  unfold mirroredCluster
  have starts : endpointPrograms quietMirror.isValidURL (.mirror 0)
      (reconcileExposure quietMirror webKey).discard := ⟨quietMirror, webKey, rfl, rfl⟩
  exact reachable_afterFresh initial starts

/-- The URL is mirrored, and a pipeline run that then writes the status leaves it. -/
theorem endpoint_provenance_mirrored :
    (endpointAt webKey mirroredCluster.current = some (some "http://web") ∧
      ∀ workload ∈ (mirroredCluster.current.table .workload).rows,
        workload.status.endpoint = none ∨
          ∃ url, workload.status.endpoint = some url ∧
            quietMirror.isValidURL url = true ∧
            Published mirroredCluster workload.key url) ∧
      ∃ event ∈ ((reconcileWorkload quietSettings webKey).discard.execute serveFresh []
          mirroredCluster).1, (event.request.sentStatus .workload).isSome = true ∧
          ∀ key, endpointAt key event.after.current = endpointAt key event.before.current := by
  refine ⟨⟨by decide +kernel, (endpoint_provenance reachable_mirroredCluster).1⟩, ?_⟩
  have sends : (((reconcileWorkload quietSettings webKey).discard.execute serveFresh []
      mirroredCluster).1.any fun event =>
        (event.request.sentStatus .workload).isSome) = true := by decide +kernel
  obtain ⟨event, member, sent⟩ := List.any_eq_true.mp sends
  have run := runs_afterFresh (reconcileWorkload quietSettings webKey).discard
    mirroredCluster
  have starts : endpointPrograms quietMirror.isValidURL (.pipeline 0)
      (reconcileWorkload quietSettings webKey).discard := ⟨quietSettings, webKey, rfl⟩
  obtain ⟨history, system, next, _, reached, moved⟩ :=
    reachable_mirroredCluster.exists_exchange_of_mem (EndpointActor.pipeline 0) rfl
      starts run (.of_forall (fun _ _ => trivial) _ _) member
  exact ⟨event, member, sent,
    (endpoint_provenance reached).2 0 history event next moved sent⟩

end ScoreOrchestrator.Controller
