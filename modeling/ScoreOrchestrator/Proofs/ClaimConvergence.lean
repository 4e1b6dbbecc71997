/-
Module: Proofs.ClaimConvergence
Purpose: How far the stored claims follow the resources of a Workload: the spec
  they get, the deprovision policy they lose, and the keys that stay behind.
-/
import ScoreOrchestrator.Proofs.ClaimCoverage

namespace ScoreOrchestrator.Controller

open Foundation Program

variable {key : String} {resource : ResourceSpec} {claim : ResourceClaim} {store : Store}
  {first second : Workload} {workload : Workload} {events : List ApiEvent}
  {before after : Store}

/-! ### Type, class and parameters -/

/-- Two optional documents with the same JSON value. -/
def SameJson (codec : JsonCodec) (first second : Option RawExtension) : Prop :=
  first = second ∨
    ∃ one two value, first = some one ∧ second = some two ∧
      codec.unmarshal one.raw = .ok value ∧ codec.unmarshal two.raw = .ok value

/-- The claim asks for what the resource does. -/
structure Matches (codec : JsonCodec) (resource : ResourceSpec)
    (spec : ResourceClaimSpec) : Prop where
  type : spec.type = resource.type
  class_ : spec.class_ = resource.class_
  params : SameJson codec spec.params resource.params

theorem matches_desiredClaimSpec (codec : JsonCodec) (workload : Workload) (key : String)
    (resource : ResourceSpec) : Matches codec resource (desiredClaimSpec workload key resource) :=
  ⟨rfl, rfl, .inl rfl⟩

/-- An upserted claim matches its resource unless it was kept with other
parameters. -/
theorem UpsertedTo.matches_iff {codec : JsonCodec} {old : Option ResourceClaim}
    (upserted : UpsertedTo workload key resource old claim) :
    Matches codec resource claim.spec ↔
      ∀ before, old = some before →
        resourceClaimSpecEqual before.spec (desiredClaimSpec workload key resource) = true →
        SameJson codec before.spec.params resource.params := by
  cases upserted with
  | kept equal =>
    constructor
    · intro fits before same _
      cases same
      exact fits.params
    · intro same
      have params := same claim rfl equal
      simp only [resourceClaimSpecEqual, Bool.and_eq_true, decide_eq_true_eq] at equal
      exact ⟨equal.1.1.1.2, equal.1.1.2, params⟩
  | updated differs version =>
    constructor
    · intro _ before same equal
      cases same
      rw [differs] at equal
      cases equal
    · intro _
      exact matches_desiredClaimSpec codec workload key resource
  | created revision version =>
    constructor
    · intro _ before same
      cases same
    · intro _
      exact matches_desiredClaimSpec codec workload key resource

/-- After a success every resource has a matching claim exactly if no claim that
differs from its resource in the value of the parameters alone was there before. -/
theorem ensureClaims_matches_iff (codec : JsonCodec) {order : IterOrder} {workload : Workload}
    {before after : Store} {events : List ApiEvent}
    (run : (ensureClaims order workload).Runs apiServer before events (.returned (.ok ())) after) :
    (∀ entry ∈ workload.spec.resources.rows, ∃ claim,
        after.find? .resourceClaim (claimKey workload entry.1) = some claim ∧
          Matches codec entry.2 claim.spec) ↔
      ∀ entry ∈ workload.spec.resources.rows, ∀ claim,
        before.find? .resourceClaim (claimKey workload entry.1) = some claim →
        resourceClaimSpecEqual claim.spec (desiredClaimSpec workload entry.1 entry.2) = true →
        SameJson codec claim.spec.params entry.2.params := by
  have upserted := ensureClaimsFor_upsertedTo
    (order.nodup_range workload.spec.resources) run
  constructor
  · intro each entry member
    obtain ⟨claim, found, fits⟩ := each entry member
    obtain ⟨other, foundOther, arrived⟩ := upserted entry (IterOrder.mem_range.mpr member)
    rw [found] at foundOther
    cases foundOther
    exact arrived.matches_iff.mp fits
  · intro same entry member
    obtain ⟨claim, found, arrived⟩ := upserted entry (IterOrder.mem_range.mpr member)
    exact ⟨claim, found, arrived.matches_iff.mpr (same entry member)⟩

/-- The Workload web with the given resources. -/
def resourceWorkload (resources : List (String × ResourceSpec)) : Workload where
  metadata := { name := "web", ns := "default", uid := "u1", generation := 1 }
  spec := { resources := .ofList resources }
  status := default

/-- A database of a type and with a size as its parameters. -/
def database (type size : String) : ResourceSpec where
  type := type
  params := some { raw := "\"" ++ size ++ "\"" }

def databaseOnly (type size : String) : Workload := resourceWorkload [("db", database type size)]

/-- The cluster after `EnsureClaims` ran through. -/
@[irreducible] def afterEnsure (workload : Workload) (store : Store) : Store :=
  ((ensureClaims .entryOrder workload).execute serve [] store).2.2

theorem runs_afterEnsure
    (returned : ((ensureClaims .entryOrder workload).execute serve [] store).2.1 =
      .returned (.ok ())) :
    (ensureClaims .entryOrder workload).Runs apiServer store
      ((ensureClaims .entryOrder workload).execute serve [] store).1
      (.returned (.ok ())) (afterEnsure workload store) := by
  have run := runs_execute serve (ensureClaims .entryOrder workload) [] store
  rw [returned] at run
  unfold afterEnsure
  exact run

/-- When the type changes too, the claim of the earlier run is brought up to date. -/
theorem ensureClaims_matches_retyped :
    ∃ claim, (afterEnsure (databaseOnly "mysql" "large")
        (afterEnsure (databaseOnly "postgres" "small") .empty)).find? .resourceClaim
          (claimKey (databaseOnly "mysql" "large") "db") = some claim ∧
      Matches .text (database "mysql" "large") claim.spec := by
  have returned : ((ensureClaims .entryOrder (databaseOnly "mysql" "large")).execute serve []
      (afterEnsure (databaseOnly "postgres" "small") .empty)).2.1 = .returned (.ok ()) := by
    decide +kernel
  have differs : ∀ entry ∈ (databaseOnly "mysql" "large").spec.resources.rows, ∀ claim ∈
      (afterEnsure (databaseOnly "postgres" "small") .empty).find? .resourceClaim
        (claimKey (databaseOnly "mysql" "large") entry.1),
      resourceClaimSpecEqual claim.spec
        (desiredClaimSpec (databaseOnly "mysql" "large") entry.1 entry.2) = false := by
    decide +kernel
  refine (ensureClaims_matches_iff .text (runs_afterEnsure returned)).mpr ?_
    ("db", database "mysql" "large") (.head _)
  intro entry member claim found equal
  rw [differs entry member claim found] at equal
  cases equal

/-- When only the size changes, the claim keeps the old one. -/
theorem ensureClaims_keeps_params :
    ∃ events after,
      (ensureClaims .entryOrder (databaseOnly "postgres" "large")).Runs apiServer
        (afterEnsure (databaseOnly "postgres" "small") .empty) events (.returned (.ok ())) after ∧
      ¬ ∀ entry ∈ (databaseOnly "postgres" "large").spec.resources.rows, ∃ claim,
        after.find? .resourceClaim
            (claimKey (databaseOnly "postgres" "large") entry.1) = some claim ∧
          Matches .text entry.2 claim.spec := by
  have returned : ((ensureClaims .entryOrder (databaseOnly "postgres" "large")).execute
      serve [] (afterEnsure (databaseOnly "postgres" "small") .empty)).2.1 =
        .returned (.ok ()) := by decide +kernel
  have params : ((afterEnsure (databaseOnly "postgres" "large")
      (afterEnsure (databaseOnly "postgres" "small") .empty)).find? .resourceClaim
        ⟨"default", "web-db"⟩).map (fun claim => claim.spec.params) =
      some (some { raw := "\"small\"" }) := by decide +kernel
  have small : JsonCodec.text.unmarshal "\"small\"" = .ok (.str "small") :=
    JsonCodec.text.unmarshal_marshal rfl
  have large : JsonCodec.text.unmarshal "\"large\"" = .ok (.str "large") :=
    JsonCodec.text.unmarshal_marshal rfl
  refine ⟨_, _, runs_afterEnsure returned, fun each => ?_⟩
  have member : ("db", database "postgres" "large") ∈
      (databaseOnly "postgres" "large").spec.resources.rows := .head _
  obtain ⟨claim, found, fits⟩ := each _ member
  have named : claimKey (databaseOnly "postgres" "large") "db" =
      ⟨"default", "web-db"⟩ := by decide
  rw [← named, found] at params
  have kept : claim.spec.params = some { raw := "\"small\"" } := Option.some.inj params
  have sent : (database "postgres" "large").params = some { raw := "\"large\"" } := by
    decide
  have same := fits.params
  rw [kept, sent] at same
  rcases same with texts | ⟨one, two, value, isOne, isTwo, decodesOne, decodesTwo⟩
  · simp at texts
  · cases isOne
    cases isTwo
    have equal := small.symm.trans (decodesOne.trans (decodesTwo.symm.trans large))
    simp at equal

/-! ### The deprovision policy -/

/-- An upsert keeps the claim as it is, policy included, or drops the policy. -/
theorem UpsertedTo.policy_eq_iff {old : ResourceClaim}
    (upserted : UpsertedTo workload key resource (some old) claim) :
    claim.spec.deprovisionPolicy = old.spec.deprovisionPolicy ↔
      old.spec.deprovisionPolicy = none ∨
        resourceClaimSpecEqual old.spec (desiredClaimSpec workload key resource) = true := by
  cases upserted with
  | kept equal => simp [equal]
  | updated differs version =>
    constructor
    · exact fun dropped => .inl dropped.symm
    · rintro (none | equal)
      · exact none.symm
      · rw [equal] at differs
        cases differs

/-- Every run of `EnsureClaims`, however it ends, leaves the policy of a stored claim
alone exactly if there is none or the claim already is, parameters apart, what the
resource of its name asks for. -/
theorem keepsPolicy_iff {workload : Workload} {claim : ResourceClaim} {store : Store}
    (stored : store.find? .resourceClaim claim.key = some claim) :
    (∀ order events outcome after,
        (ensureClaims order workload).Runs apiServer store events outcome after →
        ∃ next, after.find? .resourceClaim claim.key = some next ∧
          next.spec.deprovisionPolicy = claim.spec.deprovisionPolicy) ↔
      claim.spec.deprovisionPolicy = none ∨
        ∀ entry ∈ workload.spec.resources.rows,
          claim.key = claimKey workload entry.1 →
          resourceClaimSpecEqual claim.spec (desiredClaimSpec workload entry.1 entry.2) = true := by
  constructor
  · intro keeps
    by_cases policy : claim.spec.deprovisionPolicy = none
    · exact .inl policy
    · refine .inr fun entry member named => ?_
      obtain ⟨order, events, after, run, upserted⟩ := exists_run_upserted_entry member store
      obtain ⟨next, found, kept⟩ := keeps order events .interrupted after run
      obtain ⟨other, foundOther, arrived⟩ := upserted.upsertedTo
      rw [← named] at foundOther arrived
      rw [found] at foundOther
      cases foundOther
      rw [stored] at arrived
      exact (arrived.policy_eq_iff.mp kept).resolve_left policy
  · intro keeps order events outcome after run
    have cases := ensureClaimsFor_cases (order.nodup_range workload.spec.resources) run
      claim.key
    rcases cases with same | ⟨entry, member, named, next, found, arrived⟩
    · exact ⟨claim, same.trans stored, rfl⟩
    · rw [stored] at arrived
      refine ⟨next, found, arrived.policy_eq_iff.mpr ?_⟩
      exact keeps.imp_right fun equal =>
        equal entry (IterOrder.mem_range.mp member) named

/-- The database's claim, which an operator has marked to be retained. -/
def retainedClaim : ResourceClaim where
  metadata := { name := "web-db", ns := "default", resourceVersion := 1 }
  spec :=
    { desiredClaimSpec (databaseOnly "postgres" "small") "db" (database "postgres" "small") with
      deprovisionPolicy := some .retain }
  status := default

def retainedStore : Store := Store.empty.insert .resourceClaim retainedClaim

theorem find?_retainedStore :
    retainedStore.find? .resourceClaim retainedClaim.key = some retainedClaim := by
  decide +kernel

/-- The claim stays retained when only the size changes. -/
theorem keepsPolicy_resized :
    ∃ events after next,
      (ensureClaims .entryOrder (databaseOnly "postgres" "large")).Runs apiServer
        retainedStore events (.returned (.ok ())) after ∧
      after.find? .resourceClaim retainedClaim.key = some next ∧
      next.spec.deprovisionPolicy = some .retain := by
  have returned : ((ensureClaims .entryOrder (databaseOnly "postgres" "large")).execute
      serve [] retainedStore).2.1 = .returned (.ok ()) := by decide +kernel
  have run := runs_afterEnsure returned
  obtain ⟨next, found, kept⟩ := (keepsPolicy_iff find?_retainedStore).mpr
    (.inr (by decide +kernel)) _ _ _ _ run
  exact ⟨_, _, next, run, found, kept⟩

/-- When the type changes, the policy is gone. -/
theorem policy_lost_with_type :
    ∃ events after,
      (ensureClaims .entryOrder (databaseOnly "redis" "small")).Runs apiServer
        retainedStore events (.returned (.ok ())) after ∧
      ∃ next, after.find? .resourceClaim retainedClaim.key = some next ∧
        next.spec.deprovisionPolicy ≠ retainedClaim.spec.deprovisionPolicy := by
  have returned : ((ensureClaims .entryOrder (databaseOnly "redis" "small")).execute
      serve [] retainedStore).2.1 = .returned (.ok ()) := by decide +kernel
  have dropped : ((afterEnsure (databaseOnly "redis" "small") retainedStore).find?
      .resourceClaim retainedClaim.key).any (fun next =>
        next.spec.deprovisionPolicy ≠ retainedClaim.spec.deprovisionPolicy) = true := by
    decide +kernel
  obtain ⟨next, found, differs⟩ := Option.any_eq_true _ _ |>.mp dropped
  exact ⟨_, _, runs_afterEnsure returned, next, found, of_decide_eq_true differs⟩

/-! ### Keys -/

/-- `GetClaims` returns the claim. -/
def Lists (workload : Workload) (claim : ResourceClaim) : Prop :=
  (ListSelector.matchingFields "resourceclaim.workloadRef"
    (indexKey workload)).selects .resourceClaim claim = true

theorem lists_of_workloadRef (references : claim.spec.workloadRef = workload.key) :
    Lists workload claim := by
  simp [Lists, ListSelector.selects, indexValue, indexKey, references, Resource.key]

/-- The keys for which a list of claims holds one that is not being deleted. -/
def LiveKey (claims : List ResourceClaim) (key : String) : Prop :=
  ∃ claim ∈ claims, claim.isBeingDeleted = false ∧ claim.spec.key = key

/-- The store holds a claim of the Workload for the key that is not being deleted. -/
def HasClaim (workload : Workload) (store : Store) (key : String) : Prop :=
  ∃ claim ∈ (store.table .resourceClaim).rows,
    Lists workload claim ∧ claim.isBeingDeleted = false ∧ claim.spec.key = key

/-- `GetClaims` on a current store returns the claims that it holds. -/
theorem liveKey_getClaims {final : Store} {claims : List ResourceClaim}
    (run : (getClaims workload).Runs healthyServer store events (.returned (.ok claims)) final)
    (key : String) : LiveKey claims key ↔ HasClaim workload store key := by
  obtain ⟨reply, _, _, rfl, served, rest⟩ := run.of_call
  cases served
  cases rest
  simp only [LiveKey, HasClaim, Lists, List.mem_filter, and_assoc]

/-- A claim of the Workload that stands under the name of none of its resources. -/
structure LeftOver (workload : Workload) (store : Store) (claim : ResourceClaim) : Prop where
  stored : claim ∈ (store.table .resourceClaim).rows
  lists : Lists workload claim
  live : claim.isBeingDeleted = false
  outside : ∀ key ∈ workload.spec.resources.keys, claim.key ≠ claimKey workload key

/-- The resource's own claim is not being deleted, or there is none yet. -/
def Unmarked (workload : Workload) (store : Store) (key : String) : Prop :=
  ∀ claim, store.find? .resourceClaim (claimKey workload key) = some claim →
    claim.isBeingDeleted = false

/-- An upsert neither sets nor clears a deletion mark. -/
theorem UpsertedTo.isBeingDeleted {old : Option ResourceClaim}
    (upserted : UpsertedTo workload key resource old claim) :
    claim.isBeingDeleted = old.any Resource.isBeingDeleted := by
  cases upserted <;> rfl

section

variable {workload : Workload} {before after : Store}

section

variable {order : IterOrder} {events : List ApiEvent}
  (run : (ensureClaims order workload).Runs apiServer before events
    (.returned (.ok ())) after)

include run

/-- After the loop every resource has the claim that it was upserted to. -/
theorem ensureClaims_upserted (member : key ∈ workload.spec.resources.keys) :
    ∃ resource claim, after.find? .resourceClaim (claimKey workload key) = some claim ∧
      UpsertedTo workload key resource
        (before.find? .resourceClaim (claimKey workload key)) claim := by
  obtain ⟨entry, inRows, rfl⟩ := List.mem_map.mp member
  obtain ⟨claim, found, arrived⟩ := ensureClaimsFor_upsertedTo
    (order.nodup_range workload.spec.resources) run entry (IterOrder.mem_range.mpr inRows)
  exact ⟨entry.2, claim, found, arrived⟩

/-- A claim under the name of no resource is left alone. -/
theorem ensureClaims_frame {name : NamespacedName}
    (outside : ∀ key ∈ workload.spec.resources.keys, name ≠ claimKey workload key) :
    after.find? .resourceClaim name = before.find? .resourceClaim name := by
  apply ensureClaimsFor_frame _ run
  intro entry member
  exact outside entry.1 (List.mem_map_of_mem (IterOrder.mem_range.mp member))

/-- After the loop the live keys are those of the resources whose claim is unmarked
and those of the claims left over. -/
theorem hasClaim_iff (key : String) :
    HasClaim workload after key ↔
      (key ∈ workload.spec.resources.keys ∧ Unmarked workload before key) ∨
        ∃ claim, LeftOver workload before claim ∧ claim.spec.key = key := by
  constructor
  · intro ⟨claim, member, lists, live, sameKey⟩
    by_cases named : ∃ name ∈ workload.spec.resources.keys,
        claim.key = claimKey workload name
    · -- the claim of a resource: its key is that resource's
      obtain ⟨name, inKeys, named⟩ := named
      obtain ⟨resource, other, found, arrived⟩ := ensureClaims_upserted run inKeys
      have same : other = claim := by
        obtain ⟨otherMember, otherKey⟩ := Store.find?_eq_some.mp found
        exact (after.table .resourceClaim).eq_of_key_eq otherMember member
          (otherKey.trans named.symm)
      subst same
      have about : name = key := arrived.serves.key_eq.symm.trans sameKey
      subst about
      refine .inl ⟨inKeys, fun old foundOld => ?_⟩
      have marks := arrived.isBeingDeleted
      rw [foundOld, live] at marks
      exact marks.symm
    · push Not at named
      have found : after.find? .resourceClaim claim.key = some claim :=
        Store.find?_eq_some.mpr ⟨member, rfl⟩
      rw [ensureClaims_frame run named] at found
      exact .inr ⟨claim,
        ⟨Store.mem_of_find? found, lists, live, named⟩, sameKey⟩
  · intro either
    rcases either with ⟨inKeys, unmarked⟩ | ⟨claim, left, sameKey⟩
    · obtain ⟨resource, claim, found, arrived⟩ := ensureClaims_upserted run inKeys
      have serves := arrived.serves
      refine ⟨claim, Store.mem_of_find? found,
        lists_of_workloadRef serves.workloadRef_eq, ?_, serves.key_eq⟩
      rw [arrived.isBeingDeleted]
      cases old : before.find? .resourceClaim (claimKey workload key) with
      | none => rfl
      | some stored => exact unmarked stored old
    · have found : before.find? .resourceClaim claim.key = some claim :=
        Store.find?_eq_some.mpr ⟨left.stored, rfl⟩
      rw [← ensureClaims_frame run left.outside] at found
      exact ⟨claim, Store.mem_of_find? found, left.lists, left.live, sameKey⟩

end

end

/-- Reading the claims leaves the store alone. -/
theorem getClaims_store {outcome : Outcome (Except GoError (List ResourceClaim))}
    (run : (getClaims workload).Runs apiServer before events outcome after) : after = before := by
  refine run.of_makes (fun before after => after = before) ?_ ?_ ?_
    (getClaims_makes (fun _ _ reads => reads) workload)
  · exact fun _ => rfl
  · exact fun first second => second.trans first
  · exact fun _ _ reads _ _ _ served => apiServer_of_isRead reads served

/-- A successful phase ran the loop to its end. -/
theorem ensureClaims_of_executeClaimPhase {settings : Settings} {context after : PhaseContext}
    {result : PhaseResult} {final : Store}
    (run : (executeClaimPhase settings context).Runs apiServer before events
      (.returned (after, result)) final) (succeeded : result.error = none) :
    ∃ early, (ensureClaims settings.order context.workload).Runs apiServer
      before early (.returned (.ok ())) final := by
  obtain ⟨early, _, middle, ensures, lists, _⟩ := executeClaimPhase_ok run succeeded
  have unchanged := getClaims_store lists
  subst unchanged
  exact ⟨early, ensures⟩

/-- The claim phase for a Workload, and the list of its claims afterwards. -/
def phaseFor (workload : Workload) : Client (PhaseContext × PhaseResult) :=
  executeClaimPhase quietSettings { workload }

@[irreducible] def afterPhase (workload : Workload) (store : Store) : Store :=
  ((phaseFor workload).execute serve [] store).2.2

/-- The phase returned without an error. -/
def phaseSucceeds (workload : Workload) (store : Store) : Bool :=
  ((phaseFor workload).execute serve [] store).2.1.passes fun returned =>
    returned.2.error.isNone

theorem runs_afterPhase (succeeds : phaseSucceeds workload store = true) :
    ∃ after result events, result.error = none ∧
      (executeClaimPhase quietSettings { workload }).Runs apiServer store events
        (.returned (after, result)) (afterPhase workload store) := by
  obtain ⟨⟨after, result⟩, returned, noError⟩ := Outcome.exists_of_passes succeeds
  have run := runs_execute serve (phaseFor workload) [] store
  rw [returned] at run
  unfold afterPhase
  exact ⟨after, result, _, Option.isNone_iff_eq_none.mp noError, run⟩

/-- The claims that `GetClaims` returns. -/
def claimsIn (workload : Workload) (store : Store) : List ResourceClaim :=
  (store.table .resourceClaim).rows.filter
    ((ListSelector.matchingFields "resourceclaim.workloadRef"
      (indexKey workload)).selects .resourceClaim)

theorem runs_claimsIn (workload : Workload) (store : Store) :
    ∃ events, (getClaims workload).Runs healthyServer store events
      (.returned (.ok (claimsIn workload store))) store :=
  ⟨_, .call rfl (.done _ _)⟩

/-- A Workload with a database and a cache. -/
def withCache : Workload :=
  resourceWorkload [("db", database "postgres" "small"), ("cache", { type := "redis" })]

/-! ### Edit histories -/

/-- The claims of the Workload with this key are unmarked and named after the keys
they are about. -/
structure WellNamed (workload : Workload) (store : Store) : Prop where
  live : ∀ claim ∈ (store.table .resourceClaim).rows, claim.isBeingDeleted = false
  named : ∀ claim ∈ (store.table .resourceClaim).rows, Lists workload claim →
    claim.key = claimKey workload claim.spec.key

/-- The versions of a Workload, newest first, for which the claim phase has succeeded
since the Workload had no claim. -/
inductive EditHistory (key : NamespacedName) : List Workload → Store → Prop where
  | start {store : Store}
      (none : ∀ workload : Workload, workload.key = key →
        ∀ claim ∈ (store.table .resourceClaim).rows, ¬ Lists workload claim)
      (live : ∀ claim ∈ (store.table .resourceClaim).rows,
        claim.isBeingDeleted = false) :
      EditHistory key [] store
  | phase {versions : List Workload} {before final : Store} {settings : Settings}
      {context after : PhaseContext} {result : PhaseResult}
      {events : List ApiEvent}
      (history : EditHistory key versions before)
      (same : context.workload.key = key)
      (run : (executeClaimPhase settings context).Runs apiServer before events
        (.returned (after, result)) final)
      (succeeded : result.error = none) :
      EditHistory key (context.workload :: versions) final

theorem claimKey_congr (same : first.key = second.key) (key : String) :
    claimKey first key = claimKey second key := by
  have spaces := congrArg NamespacedName.ns same
  have names := congrArg NamespacedName.name same
  simp only [Resource.key] at spaces names
  simp [claimKey, claimName, spaces, names]

theorem lists_congr (same : first.key = second.key) (claim : ResourceClaim) :
    Lists first claim ↔ Lists second claim := by
  have spaces := congrArg NamespacedName.ns same
  have names := congrArg NamespacedName.name same
  simp only [Resource.key] at spaces names
  simp [Lists, indexKey, spaces, names]

theorem hasClaim_congr (same : first.key = second.key) {name : String} :
    HasClaim first store name ↔ HasClaim second store name := by
  simp only [HasClaim, lists_congr same]

theorem WellNamed.congr (same : first.key = second.key) (well : WellNamed first store) :
    WellNamed second store where
  live := well.live
  named claim member lists := by
    rw [← claimKey_congr same]
    exact well.named claim member ((lists_congr same claim).mpr lists)

/-- A loop keeps the claims well named. -/
theorem WellNamed.of_ensureClaims {order : IterOrder} (well : WellNamed workload before)
    (run : (ensureClaims order workload).Runs apiServer before events (.returned (.ok ())) after) :
    WellNamed workload after := by
  have origin : ∀ claim ∈ (after.table .resourceClaim).rows,
      claim ∈ (before.table .resourceClaim).rows ∨
        claim.isBeingDeleted = false ∧ claim.key = claimKey workload claim.spec.key := by
    intro claim member
    have found : after.find? .resourceClaim claim.key = some claim :=
      Store.find?_eq_some.mpr ⟨member, rfl⟩
    rcases ensureClaimsFor_cases (order.nodup_range workload.spec.resources) run
      claim.key with same | ⟨entry, _, named, next, foundNext, arrived⟩
    · rw [same] at found
      exact .inl (Store.mem_of_find? found)
    · rw [found] at foundNext
      cases foundNext
      rw [named] at arrived
      refine .inr ⟨?_, ?_⟩
      · rw [arrived.isBeingDeleted]
        cases old : before.find? .resourceClaim (claimKey workload entry.1) with
        | none => rfl
        | some stored => exact well.live stored (Store.mem_of_find? old)
      · rw [arrived.serves.key_eq]
        exact named
  constructor
  · intro claim member
    rcases origin claim member with old | ⟨live, _⟩
    · exact well.live claim old
    · exact live
  · intro claim member lists
    rcases origin claim member with old | ⟨_, named⟩
    · exact well.named claim old lists
    · exact named

/-- In a well-named store a loop adds the keys of the resources. -/
theorem WellNamed.hasClaim_iff {order : IterOrder} (well : WellNamed workload before)
    (run : (ensureClaims order workload).Runs apiServer before events (.returned (.ok ())) after)
    (key : String) :
    HasClaim workload after key ↔
      key ∈ workload.spec.resources.keys ∨ HasClaim workload before key := by
  rw [Controller.hasClaim_iff run]
  constructor
  · intro either
    rcases either with ⟨member, _⟩ | ⟨claim, left, sameKey⟩
    · exact .inl member
    · exact .inr ⟨claim, left.stored, left.lists, left.live, sameKey⟩
  · intro either
    have unmarked : Unmarked workload before key := fun claim found =>
      well.live claim (Store.mem_of_find? found)
    by_cases member : key ∈ workload.spec.resources.keys
    · exact .inl ⟨member, unmarked⟩
    · rcases either with inKeys | ⟨claim, stored, lists, live, rfl⟩
      · exact absurd inKeys member
      · -- under a resource's name it would be about that resource
        refine .inr ⟨claim, ⟨stored, lists, live, fun name inKeys same => ?_⟩, rfl⟩
        have about := claimKey_injective
          ((well.named claim stored lists).symm.trans same)
        rw [about] at member
        exact member inKeys

/-- Along every edit history the Workload has a claim for each key that some version
had, and for no other. -/
theorem EditHistory.hasClaim_iff {key : NamespacedName} {versions : List Workload}
    (history : EditHistory key versions store) (same : workload.key = key) :
    WellNamed workload store ∧
      ∀ name, HasClaim workload store name ↔
        ∃ version ∈ versions, name ∈ version.spec.resources.keys := by
  induction history generalizing workload with
  | start none live =>
    constructor
    · exact ⟨live, fun claim member lists => absurd lists (none workload same claim member)⟩
    · intro name
      constructor
      · intro ⟨claim, member, lists, _⟩
        exact absurd lists (none workload same claim member)
      · intro ⟨version, absent, _⟩
        cases absent
  | @phase versions before final settings context after result events _ current run
      succeeded ih =>
    obtain ⟨early, ensures⟩ := ensureClaims_of_executeClaimPhase run succeeded
    obtain ⟨well, keys⟩ := ih current
    have agree : context.workload.key = workload.key := current.trans same.symm
    refine ⟨(well.of_ensureClaims ensures).congr agree, fun name => ?_⟩
    rw [← hasClaim_congr agree, well.hasClaim_iff ensures, keys, List.exists_mem_cons_iff]

/-- The keys of all versions are those of the newest exactly if no other has a key that it
lacks. -/
theorem named_iff_kept {versions : List Workload} :
    (∀ name, (∃ version ∈ workload :: versions, name ∈ version.spec.resources.keys) ↔
      name ∈ workload.spec.resources.keys) ↔
      ∀ version ∈ versions, version.spec.resources.keys ⊆ workload.spec.resources.keys := by
  simp only [List.exists_mem_cons_iff]
  constructor
  · intro named version member name has
    exact (named name).mp (.inr ⟨version, member, has⟩)
  · intro kept name
    refine ⟨fun either => ?_, .inl⟩
    rcases either with has | ⟨version, member, has⟩
    · exact has
    · exact kept version member has

/-- After a successful phase the live keys are those of the resources exactly if every
claim left over is about a key of the resources, and every resource's own claim is
unmarked or some claim left over stands in for it.  After a phase of an edit history that
is so exactly if no version before had a key that the resources lack. -/
theorem claimKeys_iff {settings : Settings} {context after : PhaseContext} {result : PhaseResult}
    {before final last : Store} {events more : List ApiEvent} {claims : List ResourceClaim}
    (run : (executeClaimPhase settings context).Runs apiServer before events
      (.returned (after, result)) final) (succeeded : result.error = none)
    (listing : (getClaims context.workload).Runs healthyServer final more
      (.returned (.ok claims)) last) :
    ((∀ key, LiveKey claims key ↔ key ∈ context.workload.spec.resources.keys) ↔
      (∀ claim, LeftOver context.workload before claim →
        claim.spec.key ∈ context.workload.spec.resources.keys) ∧
      ∀ key ∈ context.workload.spec.resources.keys,
        Unmarked context.workload before key ∨
          ∃ claim, LeftOver context.workload before claim ∧ claim.spec.key = key) ∧
    ∀ versions, EditHistory context.workload.key versions before →
      ((∀ key, LiveKey claims key ↔ key ∈ context.workload.spec.resources.keys) ↔
        ∀ version ∈ versions,
          version.spec.resources.keys ⊆ context.workload.spec.resources.keys) := by
  constructor
  · obtain ⟨early, ensures⟩ := ensureClaims_of_executeClaimPhase run succeeded
    have live : ∀ key, LiveKey claims key ↔ _ := fun key =>
      (liveKey_getClaims listing key).trans (hasClaim_iff ensures key)
    constructor
    · intro same
      constructor
      · intro claim left
        exact (same _).mp ((live _).mpr (.inr ⟨claim, left, rfl⟩))
      · intro key member
        rcases (live key).mp ((same key).mpr member) with ⟨_, unmarked⟩ | left
        · exact .inl unmarked
        · exact .inr left
    · intro ⟨known, served⟩ key
      rw [live]
      constructor
      · intro either
        rcases either with ⟨member, _⟩ | ⟨claim, left, rfl⟩
        · exact member
        · exact known claim left
      · intro member
        rcases served key member with unmarked | left
        · exact .inl ⟨member, unmarked⟩
        · exact .inr left
  · intro versions history
    have keys := ((history.phase rfl run succeeded).hasClaim_iff rfl).2
    simp only [liveKey_getClaims listing, keys]
    exact named_iff_kept

/-- The phase has succeeded for the database alone. -/
theorem editHistory_small : EditHistory withCache.key [databaseOnly "postgres" "small"]
    (afterPhase (databaseOnly "postgres" "small") .empty) := by
  have succeeds : phaseSucceeds (databaseOnly "postgres" "small") .empty = true := by
    decide +kernel
  obtain ⟨_, _, _, noError, run⟩ := runs_afterPhase succeeds
  have start : EditHistory withCache.key [] .empty := .start (by rintro _ _ _ ⟨⟩) (by rintro _ ⟨⟩)
  exact start.phase rfl run noError

theorem phaseSucceeds_withCache : phaseSucceeds withCache
    (afterPhase (databaseOnly "postgres" "small") .empty) = true := by
  decide +kernel

/-- After a cache is added to the resources, the claims are those of the two. -/
theorem claimKeys_grown : withCache.spec.resources.keys = ["db", "cache"] ∧
    ∀ key, LiveKey (claimsIn withCache
      (afterPhase withCache (afterPhase (databaseOnly "postgres" "small") .empty))) key ↔
        key ∈ withCache.spec.resources.keys := by
  obtain ⟨_, _, _, noError, run⟩ := runs_afterPhase phaseSucceeds_withCache
  obtain ⟨_, listing⟩ := runs_claimsIn withCache
    (afterPhase withCache (afterPhase (databaseOnly "postgres" "small") .empty))
  refine ⟨by decide, ?_⟩
  exact ((claimKeys_iff run noError listing).2 _ editHistory_small).mpr (by decide)

/-- After the cache is removed from the resources, its claim is still listed. -/
theorem claimKeys_keep_removed :
    ∃ after result events more claims,
      (executeClaimPhase quietSettings
          { workload := databaseOnly "postgres" "small" }).Runs apiServer
        (afterPhase withCache .empty) events (.returned (after, result))
        (afterPhase (databaseOnly "postgres" "small") (afterPhase withCache .empty)) ∧
      result.error = none ∧
      (getClaims (databaseOnly "postgres" "small")).Runs healthyServer
        (afterPhase (databaseOnly "postgres" "small") (afterPhase withCache .empty)) more
        (.returned (.ok claims))
        (afterPhase (databaseOnly "postgres" "small") (afterPhase withCache .empty)) ∧
      LiveKey claims "cache" ∧
      "cache" ∉ (databaseOnly "postgres" "small").spec.resources.keys := by
  have succeeds : phaseSucceeds (databaseOnly "postgres" "small")
      (afterPhase withCache .empty) = true := by decide +kernel
  have listed : (claimsIn (databaseOnly "postgres" "small")
      (afterPhase (databaseOnly "postgres" "small") (afterPhase withCache .empty))).any
        (fun claim => !claim.isBeingDeleted && claim.spec.key = "cache") = true := by
    decide +kernel
  obtain ⟨after, result, events, noError, run⟩ := runs_afterPhase succeeds
  obtain ⟨more, listing⟩ := runs_claimsIn (databaseOnly "postgres" "small")
    (afterPhase (databaseOnly "postgres" "small") (afterPhase withCache .empty))
  obtain ⟨claim, member, both⟩ := List.any_eq_true.mp listed
  simp only [Bool.and_eq_true, Bool.not_eq_true', decide_eq_true_eq] at both
  exact ⟨after, result, events, more, _, run, noError, listing,
    ⟨claim, member, both.1, both.2⟩, by decide⟩

/-- After an edit history the Workload has a claim for each of its keys and for no other
exactly if no key was ever removed. -/
theorem claims_after_edits_iff {key : NamespacedName} {workload : Workload}
    {versions : List Workload} {store : Store}
    (history : EditHistory key (workload :: versions) store) :
    (∀ name, HasClaim workload store name ↔ name ∈ workload.spec.resources.keys) ↔
      ∀ version ∈ versions, version.spec.resources.keys ⊆ workload.spec.resources.keys := by
  have same : workload.key = key := by
    cases history
    assumption
  simp only [(history.hasClaim_iff same).2]
  exact named_iff_kept

/-- A cache is added to the resources. -/
theorem claims_after_edits_grown : ∃ store,
    ∀ name, HasClaim withCache store name ↔ name ∈ withCache.spec.resources.keys := by
  obtain ⟨_, _, _, noError, run⟩ := runs_afterPhase phaseSucceeds_withCache
  exact ⟨_, (claims_after_edits_iff (editHistory_small.phase rfl run noError)).mpr (by decide)⟩

end ScoreOrchestrator.Controller
