/-
Module: Proofs.ClaimUpserts
Purpose: What EnsureClaims does to the store: the claim behind each resource
  key, the claims it does not touch, and the names that two Workloads share.
-/
import ScoreOrchestrator.Api.ServerLaws
import ScoreOrchestrator.Controller.ClaimManager

namespace ScoreOrchestrator.Controller

open Foundation Program

variable {workload : Workload} {claim : ResourceClaim} {before after store : Store} {key : String}
  {resource : ResourceSpec} {events : List ApiEvent}
  {outcome : Outcome (Except GoError Unit)} {entries : List (String × ResourceSpec)}

/-- The key under which a Workload keeps the claim for a resource. -/
def claimKey (workload : Workload) (key : String) : NamespacedName where
  ns := workload.metadata.ns
  name := claimName workload key

/-- One Workload names the claims of different resources differently. -/
theorem claimKey_injective {first second : String}
    (same : claimKey workload first = claimKey workload second) : first = second := by
  have names : claimName workload first = claimName workload second :=
    congrArg NamespacedName.name same
  simpa [claimName, String.append_right_inj] using names

/-! ### One upsert -/

/-- A claim rewritten to a desired spec: a new generation with the same
status. -/
def rewritten (claim : ResourceClaim) (desiredSpec : ResourceClaimSpec) : ResourceClaim where
  metadata := { claim.metadata with generation := claim.metadata.generation + 1 }
  spec := desiredSpec
  status := claim.status

/-- The three ways in which an upsert succeeds. -/
inductive Upserted (workload : Workload) (key : String) (resource : ResourceSpec)
    (before after : Store) : Prop where
  | kept (claim : ResourceClaim)
      (found : before.find? .resourceClaim (claimKey workload key) = some claim)
      (equal : resourceClaimSpecEqual claim.spec
        (desiredClaimSpec workload key resource) = true)
      (unchanged : after = before)
  | updated (claim : ResourceClaim)
      (found : before.find? .resourceClaim (claimKey workload key) = some claim)
      (differs : resourceClaimSpecEqual claim.spec
        (desiredClaimSpec workload key resource) = false)
      (written : after = (before.commit .resourceClaim
        (rewritten claim (desiredClaimSpec workload key resource))).2)
  | created
      (absent : before.find? .resourceClaim (claimKey workload key) = none)
      (written : after = (before.commit .resourceClaim
        ((newClaim workload key (desiredClaimSpec workload key resource)).created
          before.revision)).2)

theorem resourceClaimSpecEqual_self (spec : ResourceClaimSpec) :
    resourceClaimSpecEqual spec spec = true := by
  simp [resourceClaimSpecEqual]

/-- Sending a claim back with another spec rewrites it. -/
theorem update_claim_ok {updated : ResourceClaim} {desiredSpec : ResourceClaimSpec}
    {key : NamespacedName} (found : before.find? .resourceClaim key = some claim)
    (differs : resourceClaimSpecEqual claim.spec desiredSpec = false)
    (served : apiServer (.update .resourceClaim { claim with spec := desiredSpec })
      before (.ok updated) after) :
    after = (before.commit .resourceClaim (rewritten claim desiredSpec)).2 := by
  obtain ⟨stored, foundStored, _, replaced⟩ := apiServer_update_ok served
  have named : claim.key = key := Store.key_of_find? found
  have same : stored = claim := by
    have again : before.find? .resourceClaim key = some stored := named ▸ foundStored
    rw [found] at again
    exact (Option.some.inj again).symm
  subst same
  have changed : desiredSpec ≠ stored.spec := by
    intro equal
    rw [equal, resourceClaimSpecEqual_self] at differs
    cases differs
  have next : stored.updatedBy { stored with spec := desiredSpec } =
      rewritten stored desiredSpec := by
    simp [Resource.updatedBy, rewritten, changed]
  rw [next] at replaced
  rcases Store.of_replace replaced with ⟨equal, _⟩ | ⟨_, _, committed⟩
  · exact absurd (congrArg Resource.spec equal) changed
  · exact committed

/-- The update path of an upsert. -/
theorem updateClaim_effect
    (found : before.find? .resourceClaim (claimKey workload key) = some claim)
    (run : (updateClaim claim (desiredClaimSpec workload key resource)).Runs apiServer before events
      outcome after) :
    Upserted workload key resource before after ∨
      after = before ∧ outcome ≠ .returned (.ok ()) := by
  unfold updateClaim at run
  split at run
  next equal =>
    cases run with
    | done => exact .inl (.kept claim found equal rfl)
    | interrupted => exact .inr ⟨rfl, by simp⟩
  next differs =>
    cases run with
    | interrupted => exact .inr ⟨rfl, by simp⟩
    | @call _ _ _ _ _ _ reply _ _ served rest =>
      cases reply with
      | error fault =>
        have unchanged := apiServer_of_error served
        cases rest <;> exact .inr ⟨unchanged, by simp⟩
      | ok updated =>
        have written := update_claim_ok found (Bool.eq_false_iff.mpr differs)
          served
        cases rest <;>
          exact .inl (.updated claim found (Bool.eq_false_iff.mpr differs)
            written)

/-- The create path of an upsert. -/
theorem createClaim_effect
    (run : (createClaim workload key (desiredClaimSpec workload key resource)).Runs apiServer before
      events outcome after) :
    Upserted workload key resource before after ∨
      after = before ∧ outcome ≠ .returned (.ok ()) := by
  cases run with
  | interrupted => exact .inr ⟨rfl, by simp⟩
  | @call _ _ _ _ _ _ reply _ _ served rest =>
    cases reply with
    | error fault =>
      have unchanged := apiServer_of_error served
      cases rest <;> exact .inr ⟨unchanged, by simp⟩
    | ok created =>
      obtain ⟨absent, written⟩ := apiServer_create_ok served
      cases rest <;>
        exact .inl (.created absent (congrArg Prod.snd written))

/-- An upsert succeeds in one of its three ways.  Cut short or failed, it has
done all of that or nothing. -/
theorem upsertResourceClaim_effect
    (run : (upsertResourceClaim workload key resource).Runs apiServer before events outcome after) :
    Upserted workload key resource before after ∨
      after = before ∧ outcome ≠ .returned (.ok ()) := by
  cases run with
  | interrupted => exact .inr ⟨rfl, by simp⟩
  | @call _ _ _ _ _ _ reply _ _ served rest =>
    cases reply with
    | ok claim =>
      obtain ⟨found, rfl⟩ := apiServer_get_ok served
      exact updateClaim_effect found rest
    | error fault =>
      obtain rfl := apiServer_of_error served
      simp only [done_bind] at rest
      split at rest
      · exact createClaim_effect rest
      · cases rest <;> exact .inr ⟨rfl, by simp⟩

/-! ### What an upsert leaves behind -/

/-- The status stored under a key, or the empty one. -/
def storedStatus (store : Store) (key : NamespacedName) : ResourceClaimStatus :=
  ((store.find? .resourceClaim key).map Resource.status).getD default

theorem storedStatus_of_find? {key : NamespacedName}
    (found : store.find? .resourceClaim key = some claim) :
    storedStatus store key = claim.status := by
  unfold storedStatus
  rw [found]
  rfl

/-- Claims under other keys stay as they are. -/
theorem Upserted.frame (upserted : Upserted workload key resource before after)
    {other : NamespacedName} (different : other ≠ claimKey workload key) :
    after.find? .resourceClaim other = before.find? .resourceClaim other := by
  cases upserted with
  | kept claim found equal unchanged => rw [unchanged]
  | updated claim found differs written =>
    have named : claim.key = claimKey workload key := Store.key_of_find? found
    rw [written]
    exact Store.find?_commit_of_ne (named ▸ different)
  | created absent written =>
    rw [written]
    exact Store.find?_commit_of_ne different

/-- The claim of a resource as an upsert leaves it: about that resource, with
the status it had. -/
structure Serves (workload : Workload) (key : String)
    (status : ResourceClaimStatus) (claim : ResourceClaim) : Prop where
  key_eq : claim.spec.key = key
  workloadRef_eq : claim.spec.workloadRef = workload.key
  status_eq : claim.status = status

/-- The claim under a resource's name before and after a successful upsert. -/
inductive UpsertedTo (workload : Workload) (key : String) (resource : ResourceSpec) :
    Option ResourceClaim → ResourceClaim → Prop where
  | kept {claim : ResourceClaim}
      (equal : resourceClaimSpecEqual claim.spec
        (desiredClaimSpec workload key resource) = true) :
      UpsertedTo workload key resource (some claim) claim
  | updated {claim : ResourceClaim}
      (differs : resourceClaimSpecEqual claim.spec
        (desiredClaimSpec workload key resource) = false) (version : Nat) :
      UpsertedTo workload key resource (some claim)
        (Store.stamp version (rewritten claim (desiredClaimSpec workload key resource)))
  | created (revision version : Nat) :
      UpsertedTo workload key resource none
        (Store.stamp version
          ((newClaim workload key (desiredClaimSpec workload key resource)).created
            revision))

theorem Upserted.upsertedTo (upserted : Upserted workload key resource before after) :
    ∃ claim, after.find? .resourceClaim (claimKey workload key) = some claim ∧
      UpsertedTo workload key resource
        (before.find? .resourceClaim (claimKey workload key)) claim := by
  cases upserted with
  | kept claim found equal unchanged =>
    rw [found]
    exact ⟨claim, unchanged ▸ found, .kept equal⟩
  | updated claim found differs written =>
    obtain ⟨member, named⟩ := Store.find?_eq_some.mp found
    -- the finalizers and the deletion mark stay, so the claim is not released
    have held : (rewritten claim (desiredClaimSpec workload key resource)).isReleased = false :=
      before.live .resourceClaim claim member
    have stored := before.find?_commit_self .resourceClaim held
    rw [← written] at stored
    rw [found]
    exact ⟨_, named ▸ stored, .updated differs _⟩
  | created absent written =>
    have held : ((newClaim workload key (desiredClaimSpec workload key
        resource)).created before.revision).isReleased = false := rfl
    have stored := before.find?_commit_self .resourceClaim held
    rw [← written] at stored
    rw [absent]
    exact ⟨_, stored, .created _ _⟩

/-- However it got there, the claim is about the resource and has the status it
had. -/
theorem UpsertedTo.serves (upserted : UpsertedTo workload key resource
      (store.find? .resourceClaim (claimKey workload key)) claim) :
    Serves workload key (storedStatus store (claimKey workload key)) claim := by
  unfold storedStatus
  generalize store.find? .resourceClaim (claimKey workload key) = old at upserted ⊢
  cases upserted with
  | kept equal =>
    simp only [resourceClaimSpecEqual, Bool.and_eq_true, decide_eq_true_eq] at equal
    exact ⟨equal.1.1.1.1.2, equal.1.1.1.1.1, rfl⟩
  | updated differs version => exact ⟨rfl, rfl, rfl⟩
  | created revision version => exact ⟨rfl, rfl, rfl⟩

theorem Upserted.present (upserted : Upserted workload key resource before after) :
    ∃ claim, after.find? .resourceClaim (claimKey workload key) = some claim ∧
      Serves workload key (storedStatus before (claimKey workload key)) claim := by
  obtain ⟨claim, found, arrived⟩ := upserted.upsertedTo
  exact ⟨claim, found, arrived.serves⟩

/-- However an upsert ends, the claim under a name is as it was, or it is the one that was
upserted. -/
theorem upsertResourceClaim_cases
    (run : (upsertResourceClaim workload key resource).Runs apiServer before events outcome after)
    (name : NamespacedName) :
    after.find? .resourceClaim name = before.find? .resourceClaim name ∨
      name = claimKey workload key ∧
        ∃ claim, after.find? .resourceClaim name = some claim ∧
          UpsertedTo workload key resource (before.find? .resourceClaim name) claim := by
  rcases upsertResourceClaim_effect run with upserted | ⟨unchanged, _⟩
  · by_cases about : name = claimKey workload key
    · subst about
      exact .inr ⟨rfl, upserted.upsertedTo⟩
    · exact .inl (upserted.frame about)
  · rw [unchanged]
    exact .inl rfl

/-! ### The loop -/

/-- What the loop has done after a list of resources. -/
structure Ensured (workload : Workload) (entries : List (String × ResourceSpec))
    (before after : Store) : Prop where
  present : ∀ entry ∈ entries, ∃ claim,
    after.find? .resourceClaim (claimKey workload entry.1) = some claim ∧
      Serves workload entry.1 (storedStatus before (claimKey workload entry.1)) claim
  frame : ∀ other, (∀ entry ∈ entries, other ≠ claimKey workload entry.1) →
    after.find? .resourceClaim other = before.find? .resourceClaim other

/-- However the loop ends, claims under the names of no resource stay as they
are. -/
theorem ensureClaimsFor_frame {other : NamespacedName}
    (outside : ∀ entry ∈ entries, other ≠ claimKey workload entry.1)
    (run : (ensureClaimsFor workload entries).Runs apiServer before events outcome after) :
    after.find? .resourceClaim other = before.find? .resourceClaim other := by
  induction entries generalizing before events with
  | nil => cases run <;> rfl
  | cons entry rest ih =>
    have upsert : ∀ {early : List ApiEvent} {ended} {middle : Store},
        (upsertResourceClaim workload entry.1 entry.2).Runs apiServer
          before early ended middle →
        middle.find? .resourceClaim other = before.find? .resourceClaim other := by
      intro early ended middle head
      rcases upsertResourceClaim_cases head other with same | ⟨named, _⟩
      · exact same
      · exact absurd named (outside entry (.head _))
    have outsideRest : ∀ entry ∈ rest, other ≠ claimKey workload entry.1 :=
      fun entry member => outside entry (.tail _ member)
    rcases run.bind_cases with
      ⟨upserted, _, _, middle, _, head, tail⟩ | ⟨_, _, head⟩ | ⟨_, head⟩
    · cases upserted with
      | ok _ => exact (ih outsideRest tail).trans (upsert head)
      | error fault => cases tail <;> exact upsert head
    · exact upsert head
    · exact upsert head

/-- The loop, run to its end without an error, upserts every resource. -/
theorem ensureClaimsFor_upsertedTo (distinct : (entries.map Prod.fst).Nodup)
    (run : (ensureClaimsFor workload entries).Runs apiServer before events
      (.returned (.ok ())) after) :
    ∀ entry ∈ entries, ∃ claim,
      after.find? .resourceClaim (claimKey workload entry.1) = some claim ∧
        UpsertedTo workload entry.1 entry.2
          (before.find? .resourceClaim (claimKey workload entry.1)) claim := by
  induction entries generalizing before events with
  | nil => nofun
  | cons first rest ih =>
    obtain ⟨fresh, distinctRest⟩ := List.nodup_cons.mp distinct
    -- the rest of the loop works on other claims
    have apart : ∀ entry ∈ rest, claimKey workload first.1 ≠ claimKey workload entry.1 := by
      intro entry member same
      apply fresh
      rw [claimKey_injective same]
      exact List.mem_map_of_mem member
    obtain ⟨upserted, early, late, middle, _, head, tail⟩ := run.exists_of_bind
    cases upserted with
    | error fault => cases tail
    | ok _ =>
      rcases upsertResourceClaim_effect head with effect | ⟨_, unfinished⟩
      · intro entry member
        rcases List.mem_cons.mp member with rfl | later
        · rw [ensureClaimsFor_frame apart tail]
          exact effect.upsertedTo
        · rw [← effect.frame (apart entry later).symm]
          exact ih distinctRest tail entry later
      · exact absurd rfl unfinished

/-- However the loop ends, the claim under a name is as it was, or was upserted for
the resource of that name. -/
theorem ensureClaimsFor_cases (distinct : (entries.map Prod.fst).Nodup)
    (run : (ensureClaimsFor workload entries).Runs apiServer before events outcome after)
    (name : NamespacedName) :
    after.find? .resourceClaim name = before.find? .resourceClaim name ∨
      ∃ entry ∈ entries, name = claimKey workload entry.1 ∧
        ∃ claim, after.find? .resourceClaim name = some claim ∧
          UpsertedTo workload entry.1 entry.2 (before.find? .resourceClaim name)
            claim := by
  induction entries generalizing before events with
  | nil => cases run <;> exact .inl rfl
  | cons first rest ih =>
    obtain ⟨fresh, distinctRest⟩ := List.nodup_cons.mp distinct
    rcases run.bind_cases with
      ⟨upserted, _, _, middle, _, head, tail⟩ | ⟨_, _, head⟩ | ⟨_, head⟩
    · rcases upsertResourceClaim_cases head name with same | ⟨named, claim, found, arrived⟩
      · cases upserted with
        | error fault => cases tail <;> exact .inl same
        | ok _ =>
          rcases ih distinctRest tail with kept | later
          · exact .inl (kept.trans same)
          · obtain ⟨entry, member, named, claim, found, arrived⟩ := later
            rw [same] at arrived
            exact .inr ⟨entry, .tail _ member, named, claim, found, arrived⟩
      · refine .inr ⟨first, .head _, named, claim, ?_, arrived⟩
        cases upserted with
        | error fault => cases tail <;> exact found
        | ok _ =>
          -- the rest of the loop works on other claims
          have apart : ∀ entry ∈ rest, name ≠ claimKey workload entry.1 := by
            intro entry member same
            apply fresh
            rw [claimKey_injective (named.symm.trans same)]
            exact List.mem_map_of_mem member
          rw [ensureClaimsFor_frame apart tail]
          exact found
    · exact (upsertResourceClaim_cases head name).imp_right fun upserted =>
        ⟨first, .head _, upserted⟩
    · exact (upsertResourceClaim_cases head name).imp_right fun upserted =>
        ⟨first, .head _, upserted⟩

theorem ensureClaimsFor_ensured (distinct : (entries.map Prod.fst).Nodup)
    (run : (ensureClaimsFor workload entries).Runs apiServer before events
      (.returned (.ok ())) after) : Ensured workload entries before after where
  present entry member := by
    obtain ⟨claim, found, arrived⟩ := ensureClaimsFor_upsertedTo distinct run entry member
    exact ⟨claim, found, arrived.serves⟩
  frame other outside := ensureClaimsFor_frame outside run

/-! ### Claims of two Workloads -/

/-- A claim that a run of `EnsureClaims` created, with whatever status and spec
it has by now. -/
def CreatedBy (workload : Workload) (claim : ResourceClaim) : Prop :=
  ∃ (order : IterOrder) (before after : Store)
    (events : List ApiEvent)
    (outcome : Outcome (Except GoError Unit)) (created : ResourceClaim),
    (ensureClaims order workload).Runs apiServer before events outcome
      after ∧
    before.find? .resourceClaim claim.key = none ∧
    after.find? .resourceClaim claim.key = some created ∧
    created.metadata.uid = claim.metadata.uid

/-- No run of `EnsureClaims` for the one Workload, however it ends, changes a
claim created for the other. -/
def LeavesClaimsOf (workload other : Workload) : Prop :=
  ∀ claim, CreatedBy other claim → ∀ (order : IterOrder) (before after : Store)
    (events : List ApiEvent)
    (outcome : Outcome (Except GoError Unit)),
    before.find? .resourceClaim claim.key = some claim →
    (ensureClaims order workload).Runs apiServer before events outcome
      after →
    after.find? .resourceClaim claim.key = some claim

/-- The longer name goes on with a hyphen and a text that some key of the other
Workload begins with, and what follows in that key is a key of its own. -/
def SharesName (shorter longer : Workload) : Prop :=
  ∃ between, longer.metadata.name = shorter.metadata.name ++ "-" ++ between ∧
    ∃ key ∈ longer.spec.resources.keys,
      between ++ "-" ++ key ∈ shorter.spec.resources.keys

/-- Two Workloads of a namespace have a claim name in common exactly then. -/
theorem exists_claimKey_eq_iff {first second : Workload}
    (together : first.metadata.ns = second.metadata.ns)
    (distinct : first.metadata.name ≠ second.metadata.name) :
    (∃ early ∈ first.spec.resources.keys, ∃ late ∈ second.spec.resources.keys,
        claimKey first early = claimKey second late) ↔
      SharesName first second ∨ SharesName second first := by
  have names : ∀ early late, claimKey first early = claimKey second late ↔
      claimName first early = claimName second late := by
    intro early late
    simp [claimKey, together]
  constructor
  · rintro ⟨early, earlyMember, late, lateMember, same⟩
    rcases hyphenated_eq_iff.mp ((names early late).mp same) with
      ⟨equal, _⟩ | ⟨between, longer, rfl⟩ | ⟨between, longer, rfl⟩
    · exact absurd equal distinct
    · exact .inl ⟨between, longer, late, lateMember, earlyMember⟩
    · exact .inr ⟨between, longer, early, earlyMember, lateMember⟩
  · rintro (⟨between, longer, key, member, shared⟩ | ⟨between, longer, key, member, shared⟩)
    · refine ⟨_, shared, key, member, (names _ _).mpr ?_⟩
      exact hyphenated_eq_iff.mpr (.inr (.inl ⟨between, longer, rfl⟩))
    · refine ⟨key, member, _, shared, (names _ _).mpr ?_⟩
      exact hyphenated_eq_iff.mpr (.inr (.inr ⟨between, longer, rfl⟩))

/-- A created claim stands under the name of a resource. -/
theorem CreatedBy.exists_key (created : CreatedBy workload claim) :
    ∃ key ∈ workload.spec.resources.keys, claim.key = claimKey workload key := by
  obtain ⟨order, before, after, events, outcome, object, run, absent, found, _⟩ := created
  by_contra none
  push Not at none
  have outside : ∀ entry ∈ order.range workload.spec.resources,
      claim.key ≠ claimKey workload entry.1 := by
    intro entry member
    exact none entry.1 (List.mem_map_of_mem (IterOrder.mem_range.mp member))
  rw [ensureClaimsFor_frame outside run, absent] at found
  cases found

/-- A claim that is stored can be brought to any spec. -/
theorem exists_run_updateClaim (stored : store.find? .resourceClaim claim.key = some claim)
    (desiredSpec : ResourceClaimSpec) :
    ∃ events after, (updateClaim claim desiredSpec).Runs apiServer store
      events (.returned (.ok ())) after := by
  unfold updateClaim
  split
  · exact ⟨[], store, .done _ _⟩
  · have replaced : serve (.update .resourceClaim { claim with spec := desiredSpec })
        store = store.replace .resourceClaim claim
          (claim.updatedBy { claim with spec := desiredSpec }) := by
      have same : store.find? .resourceClaim
          ({ claim with spec := desiredSpec } : ResourceClaim).key = some claim :=
        stored
      simp only [serve, Store.replaceRead, same, if_true]
    rcases store.replace_cases .resourceClaim claim
        (claim.updatedBy { claim with spec := desiredSpec }) with
      ⟨_, equal⟩ | ⟨_, equal⟩
    · exact ⟨_, _, .call (.inl (replaced.trans equal)) (.done _ _)⟩
    · exact ⟨_, _, .call (.inl (replaced.trans equal)) (.done _ _)⟩

/-- A claim can be created where there is none. -/
theorem exists_run_createClaim (absent : store.find? .resourceClaim (claimKey workload key) = none)
    (desiredSpec : ResourceClaimSpec) :
    ∃ events after, (createClaim workload key desiredSpec).Runs apiServer
      store events (.returned (.ok ())) after := by
  have free : store.find? .resourceClaim (newClaim workload key desiredSpec).key = none := absent
  have served : serve (.create .resourceClaim (newClaim workload key desiredSpec))
      store = (.ok (store.commit .resourceClaim
          ((newClaim workload key desiredSpec).created store.revision)).1,
        (store.commit .resourceClaim
          ((newClaim workload key desiredSpec).created store.revision)).2) := by
    simp only [serve, free]
  exact ⟨_, _, .call (.inl served) (.done _ _)⟩

/-- From every store an upsert can run through. -/
theorem exists_run_upsertResourceClaim (workload : Workload) (key : String)
    (resource : ResourceSpec) (store : Store) :
    ∃ events after, (upsertResourceClaim workload key resource).Runs apiServer store events
      (.returned (.ok ())) after := by
  cases found : store.find? .resourceClaim (claimKey workload key) with
  | none =>
    have missing : serve (.get .resourceClaim (claimKey workload key)) store =
        (.error (.objectNotFound .resourceClaim (claimKey workload key)), store) := by
      simp only [serve, found]
    obtain ⟨events, after, run⟩ := exists_run_createClaim found
      (desiredClaimSpec workload key resource)
    exact ⟨_, after, .call (.inl missing) run⟩
  | some claim =>
    have got : serve (.get .resourceClaim (claimKey workload key)) store = (.ok claim, store) := by
      simp only [serve, found]
    have stored : store.find? .resourceClaim claim.key = some claim :=
      Store.key_of_find? found ▸ found
    obtain ⟨events, after, run⟩ := exists_run_updateClaim stored
      (desiredClaimSpec workload key resource)
    exact ⟨_, after, .call (.inl got) run⟩

/-- Some run of `EnsureClaims` upserts a given resource first and is then cut
short. -/
theorem exists_run_upserted_entry (entry : (key, resource) ∈ workload.spec.resources.rows)
    (store : Store) :
    ∃ (order : IterOrder) (events : List ApiEvent) (after : Store),
      (ensureClaims order workload).Runs apiServer store events .interrupted after ∧
      Upserted workload key resource store after := by
  obtain ⟨rest, arranged⟩ := IterOrder.beginWith_range entry
  obtain ⟨events, after, run⟩ := exists_run_upsertResourceClaim workload key resource store
  refine ⟨.beginWith key, events ++ [], after, ?_, ?_⟩
  · unfold ensureClaims
    rw [arranged]
    exact run.bind (.interrupted _ _)
  · rcases upsertResourceClaim_effect run with upserted | ⟨_, unfinished⟩
    · exact upserted
    · exact absurd rfl unfinished

theorem exists_run_upserted (member : key ∈ workload.spec.resources.keys) (store : Store) :
    ∃ (order : IterOrder) (resource : ResourceSpec) (events : List ApiEvent) (after : Store),
      (ensureClaims order workload).Runs apiServer store events .interrupted after ∧
      Upserted workload key resource store after := by
  obtain ⟨⟨name, resource⟩, entry, named⟩ := List.mem_map.mp member
  obtain rfl : name = key := named
  obtain ⟨order, events, after, run, upserted⟩ := exists_run_upserted_entry entry store
  exact ⟨order, resource, events, after, run, upserted⟩

/-- Where the names meet, one Workload takes the other's claim over. -/
theorem not_leavesClaimsOf {first second : Workload} {early late : String}
    (distinct : first.metadata.name ≠ second.metadata.name)
    (earlyMember : early ∈ first.spec.resources.keys)
    (lateMember : late ∈ second.spec.resources.keys)
    (same : claimKey first early = claimKey second late) : ¬ LeavesClaimsOf first second := by
  intro leaves
  obtain ⟨order, resource, events, middle, creation, created⟩ :=
    exists_run_upserted lateMember .empty
  obtain ⟨claim, found, serves⟩ := created.present
  obtain ⟨order', resource', events', after, run, taken⟩ := exists_run_upserted earlyMember middle
  obtain ⟨claim', found', serves'⟩ := taken.present
  have named : claim.key = claimKey second late := Store.key_of_find? found
  rw [← named] at found
  have byOther : CreatedBy second claim :=
    ⟨order, .empty, middle, events, .interrupted, claim, creation, rfl, found, rfl⟩
  have kept := leaves claim byOther order' middle after events' _ found run
  rw [named, ← same, found'] at kept
  -- the reference now names the first Workload
  have ref : first.key = second.key := by
    rw [← serves'.workloadRef_eq, ← serves.workloadRef_eq, Option.some.inj kept]
  exact distinct (congrArg NamespacedName.name ref)

/-- `EnsureClaims` for one Workload leaves the claims of another one of its
namespace alone exactly if no claim name can be read both ways. -/
theorem leavesClaimsOf_iff (first second : Workload)
    (together : first.metadata.ns = second.metadata.ns)
    (distinct : first.metadata.name ≠ second.metadata.name) :
    LeavesClaimsOf first second ↔ ¬ SharesName first second ∧ ¬ SharesName second first := by
  rw [← not_or, ← exists_claimKey_eq_iff together distinct]
  constructor
  · rintro leaves ⟨early, earlyMember, late, lateMember, same⟩
    exact not_leavesClaimsOf distinct earlyMember lateMember same leaves
  · intro apart claim created order before after events outcome found run
    obtain ⟨late, lateMember, named⟩ := created.exists_key
    have outside : ∀ entry ∈ order.range first.spec.resources,
        claim.key ≠ claimKey first entry.1 := by
      intro entry member same
      have early : entry.1 ∈ first.spec.resources.keys :=
        List.mem_map_of_mem (IterOrder.mem_range.mp member)
      exact apart ⟨entry.1, early, late, lateMember, same.symm.trans named⟩
    rw [ensureClaimsFor_frame outside run]
    exact found

/-- A Workload with one resource. -/
def singleResourceWorkload (name key : String) : Workload where
  metadata := { name, ns := "default", uid := "uid-" ++ name, generation := 1 }
  spec := { resources := .ofList [(key, { type := "postgres" })] }
  status := default

theorem key_mem_singleResourceWorkload (name key : String) :
    key ∈ (singleResourceWorkload name key).spec.resources.keys := by
  have only : (singleResourceWorkload name key).spec.resources.keys = [key] := rfl
  rw [only]
  exact .head _

theorem leavesClaimsOf_web_api :
    LeavesClaimsOf (singleResourceWorkload "web" "db") (singleResourceWorkload "api" "db") := by
  have apart : ∀ first second between : String, first.length = second.length →
      second ≠ first ++ "-" ++ between := by
    intro first second between lengths same
    have hyphen : "-".length = 1 := rfl
    rw [same, String.length_append, String.length_append, hyphen] at lengths
    omega
  have lengths : "web".length = "api".length := by decide
  have distinct : "web" ≠ "api" := by decide
  refine (leavesClaimsOf_iff (singleResourceWorkload "web" "db")
    (singleResourceWorkload "api" "db") rfl distinct).mpr ⟨?_, ?_⟩
  · rintro ⟨between, longer, _⟩
    exact apart "web" "api" between lengths longer
  · rintro ⟨between, longer, _⟩
    exact apart "api" "web" between lengths.symm longer

/-- Workload `a` with key `b-c` takes over the claim of Workload `a-b` with key
`c`. -/
theorem not_leavesClaimsOf_hyphens :
    ¬ LeavesClaimsOf (singleResourceWorkload "a" "b-c") (singleResourceWorkload "a-b" "c") := by
  have distinct : "a" ≠ "a-b" := by decide
  exact not_leavesClaimsOf distinct (key_mem_singleResourceWorkload "a" "b-c")
    (key_mem_singleResourceWorkload "a-b" "c") (by decide)

end ScoreOrchestrator.Controller
