/-
Module: Proofs.ClaimCoverage
Purpose: When the claim phase may report every resource of a Workload ready,
  behind a client whose lists may be answered from earlier snapshots.
-/
import ScoreOrchestrator.Proofs.ClaimUpserts
import ScoreOrchestrator.Proofs.Footprints

namespace ScoreOrchestrator.Controller

open Foundation Program

/-!
The phase ensures one claim per resource, lists the claims of the Workload and
aggregates what the list returned.  Nothing compares that list with the resource
keys, so what the aggregation says about the spec depends on how old the listed
snapshot is.
-/

variable {workload : Workload} {before : CachedStore}
  {events : List (EventOn CachedStore)} {settings : Settings}
  {context after : PhaseContext} {result : PhaseResult}

/-- Every resource key has a bound claim in the store. -/
def CoversSpec (store : Store) (workload : Workload) : Prop :=
  ∀ key ∈ workload.spec.resources.keys,
    ∃ claim ∈ (store.table .resourceClaim).rows,
      claim.spec.key = key ∧ claim.spec.workloadRef = workload.key ∧ isBound claim

instance (store : Store) (workload : Workload) : Decidable (CoversSpec store workload) :=
  inferInstanceAs (Decidable (∀ key ∈ _, ∃ claim ∈ _, _ ∧ _ ∧ _))

/-- A resource key has a bound claim already: the one under its own name, or one
that no upsert of the Workload will touch. -/
def ServedBefore (store : Store) (workload : Workload) (key : String) : Prop :=
  ∃ claim ∈ (store.table .resourceClaim).rows, isBound claim ∧
    (claim.key = claimKey workload key ∨
      claim.spec.key = key ∧ claim.spec.workloadRef = workload.key ∧
        ∀ other ∈ workload.spec.resources.keys, claim.key ≠ claimKey workload other)

instance (store : Store) (workload : Workload) (key : String) :
    Decidable (ServedBefore store workload key) :=
  inferInstanceAs (Decidable (∃ claim ∈ _, _ ∧ (_ ∨ _ ∧ _ ∧ ∀ other ∈ _, _ ≠ _)))

/-! ### Bound claims before and after -/

theorem isBound_congr {first second : ResourceClaim} (same : first.status = second.status) :
    isBound first = isBound second := by
  simp only [isBound, same]

/-- A claim that is bound after the loop was stored and bound before it. -/
theorem Serves.find?_of_isBound {key : String} {store : Store} {name : NamespacedName}
    {claim : ResourceClaim} (serves : Serves workload key (storedStatus store name) claim)
    (bound : isBound claim) : ∃ old, store.find? .resourceClaim name = some old ∧ isBound old := by
  cases found : store.find? .resourceClaim name with
  | some old =>
    have same : claim.status = old.status := serves.status_eq.trans (storedStatus_of_find? found)
    exact ⟨old, rfl, (isBound_congr same).symm ▸ bound⟩
  | none =>
    have empty : claim.status = default := by
      rw [serves.status_eq, storedStatus, found]
      rfl
    have unbound : isBound claim = false := by
      rw [isBound, empty]
      rfl
    rw [unbound] at bound
    cases bound

/-- After the loop over all resources the spec is covered exactly if each key
had a bound claim before. -/
theorem Ensured.coversSpec_iff {order : IterOrder} {before after : Store}
    (ensured : Ensured workload (order.range workload.spec.resources) before after) :
    CoversSpec after workload ↔
      ∀ key ∈ workload.spec.resources.keys, ServedBefore before workload key := by
  have present : ∀ key ∈ workload.spec.resources.keys, ∃ claim,
      after.find? .resourceClaim (claimKey workload key) = some claim ∧
        Serves workload key (storedStatus before (claimKey workload key)) claim := by
    intro key member
    obtain ⟨entry, entryMember, rfl⟩ := List.mem_map.mp member
    exact ensured.present entry (IterOrder.mem_range.mpr entryMember)
  have frame : ∀ other,
      (∀ key ∈ workload.spec.resources.keys, other ≠ claimKey workload key) →
        after.find? .resourceClaim other = before.find? .resourceClaim other := by
    intro other outside
    apply ensured.frame
    intro entry member
    exact outside entry.1 (List.mem_map_of_mem (IterOrder.mem_range.mp member))
  constructor
  · intro covers key member
    obtain ⟨claim, stored, about, ref, bound⟩ := covers key member
    by_cases named : ∃ other ∈ workload.spec.resources.keys,
        claim.key = claimKey workload other
    · obtain ⟨other, otherMember, name⟩ := named
      obtain ⟨served, found, serves⟩ := present other otherMember
      have same : served = claim := by
        have again := Store.find?_eq_some.mpr ⟨stored, name⟩
        rw [found] at again
        exact Option.some.inj again
      subst same
      obtain ⟨old, foundOld, oldBound⟩ := serves.find?_of_isBound bound
      obtain ⟨oldStored, oldName⟩ := Store.find?_eq_some.mp foundOld
      have keys : other = key := serves.key_eq.symm.trans about
      exact ⟨old, oldStored, oldBound, .inl (keys ▸ oldName)⟩
    · push Not at named
      have found := frame claim.key named
      rw [Store.find?_eq_some.mpr ⟨stored, rfl⟩] at found
      have oldStored := Store.mem_of_find? found.symm
      exact ⟨claim, oldStored, bound, .inr ⟨about, ref, named⟩⟩
  · intro served key member
    obtain ⟨old, stored, bound, name | ⟨about, ref, outside⟩⟩ := served key member
    · obtain ⟨claim, found, serves⟩ := present key member
      have foundOld := Store.find?_eq_some.mpr ⟨stored, name⟩
      have same : claim.status = old.status :=
        serves.status_eq.trans (storedStatus_of_find? foundOld)
      exact ⟨claim, Store.mem_of_find? found, serves.key_eq,
        serves.workloadRef_eq, (isBound_congr same).trans bound⟩
    · have found := frame old.key outside
      rw [Store.find?_eq_some.mpr ⟨stored, rfl⟩] at found
      exact ⟨old, Store.mem_of_find? found, about, ref, bound⟩

/-! ### The phase -/

/-- The loop makes no list call. -/
theorem claimCalls_isList : ClaimCalls fun _ request => request.isList = false where
  getClaim _ := rfl
  createClaim _ _ _ := rfl
  updateClaim _ _ _ _ := rfl

/-- Listing the claims leaves the current store alone. -/
theorem getClaims_current {after : CachedStore}
    {outcome : Outcome (Except GoError (List ResourceClaim))}
    (run : (getClaims workload).Runs cachedServer before events outcome after) :
    after.current = before.current := by
  cases run with
  | interrupted => rfl
  | @call _ _ _ _ _ _ reply _ _ served rest =>
    have same := current_of_cachedServer_list rfl served
    cases reply with
    | ok claims => cases rest <;> exact same
    | error fault =>
      simp only [done_bind] at rest
      split at rest
      · cases rest with
        | interrupted => exact same
        | call servedAgain last =>
          have sameAgain := current_of_cachedServer_list rfl servedAgain
          cases last <;> exact sameAgain.trans same
      · cases rest <;> exact same

/-- A successful phase, on whatever server: the loop ran to its end, and the aggregation
is that of the claims that were listed then. -/
theorem executeClaimPhase_ok {State : Type} {server : Server State} {before final : State}
    {events : List (EventOn State)}
    (run : (executeClaimPhase settings context).Runs server before events
      (.returned (after, result)) final) (succeeded : result.error = none) :
    ∃ early late middle,
      (ensureClaims settings.order context.workload).Runs server before early
        (.returned (.ok ())) middle ∧
      (getClaims context.workload).Runs server middle late (.returned (.ok after.claims)) final ∧
      after.claimAgg = aggregateStatus after.claims := by
  obtain ⟨ensured, early, _, middle, _, head, tail⟩ := run.exists_of_bind
  cases ensured with
  | error fault =>
    cases tail
    cases succeeded
  | ok _ =>
    obtain ⟨listed, late, _, last, _, second, rest⟩ := tail.exists_of_bind
    cases listed with
    | error fault =>
      cases rest
      cases succeeded
    | ok claims =>
      cases rest
      exact ⟨early, late, middle, head, second, rfl⟩

/-- A successful phase behind a cached client: every resource has its claim, and the
aggregation is that of the claims the list returned. -/
theorem executeClaimPhase_returned {final : CachedStore}
    (run : (executeClaimPhase settings context).Runs cachedServer before
      events (.returned (after, result)) final) (succeeded : result.error = none) :
    Ensured context.workload (settings.order.range context.workload.spec.resources)
        before.current final.current ∧ after.claimAgg = aggregateStatus after.claims := by
  obtain ⟨_, _, _, ensures, lists, aggregated⟩ := executeClaimPhase_ok run succeeded
  have direct := ensures.map CachedStore.current
    (fun _ request direct _ _ _ => apiServer_of_cachedServer direct)
    (ensureClaims_makes claimCalls_isList _ _)
  have done := ensureClaimsFor_ensured
    (settings.order.nodup_range context.workload.spec.resources) direct
  rw [← getClaims_current lists] at done
  exact ⟨done, aggregated⟩

/-- A list that shows the claim of every resource as it is now is enough. -/
theorem claimPhase_covers_spec_of_listed {final : CachedStore}
    (run : (executeClaimPhase settings context).Runs cachedServer before
      events (.returned (after, result)) final) (succeeded : result.error = none)
    (listed : ∀ key ∈ context.workload.spec.resources.keys, ∀ claim,
      final.current.find? .resourceClaim (claimKey context.workload key) =
        some claim → claim ∈ after.claims) (ready : after.claimAgg.ready = true) :
    CoversSpec final.current context.workload := by
  obtain ⟨ensured, aggregated⟩ := executeClaimPhase_returned run succeeded
  rw [aggregated, aggregateStatus_ready] at ready
  intro key member
  obtain ⟨entry, entryMember, rfl⟩ := List.mem_map.mp member
  obtain ⟨claim, found, serves⟩ := ensured.present entry (IterOrder.mem_range.mpr entryMember)
  have bound := ready claim (listed entry.1 member claim found)
  exact ⟨claim, Store.mem_of_find? found, serves.key_eq,
    serves.workloadRef_eq, bound⟩

/-- A successful phase reports ready only for a covered spec exactly when some
listed claim is not bound or every resource key was served before the phase. -/
theorem claimPhase_covers_spec_iff {settings : Settings} {context after : PhaseContext}
    {result : PhaseResult} {before final : CachedStore} {events : List (EventOn CachedStore)}
    (run : (executeClaimPhase settings context).Runs cachedServer before
      events (.returned (after, result)) final) (succeeded : result.error = none) :
    (after.claimAgg.ready = true → CoversSpec final.current context.workload) ↔
      (∃ claim ∈ after.claims, isBound claim = false) ∨
        ∀ key ∈ context.workload.spec.resources.keys,
          ServedBefore before.current context.workload key := by
  obtain ⟨ensured, aggregated⟩ := executeClaimPhase_returned run succeeded
  rw [aggregated, aggregateStatus_ready, ensured.coversSpec_iff]
  by_cases unbound : ∃ claim ∈ after.claims, isBound claim = false
  · obtain ⟨claim, member, fails⟩ := unbound
    have notAll : ¬ ∀ claim ∈ after.claims, isBound claim = true := by
      intro all
      rw [all claim member] at fails
      cases fails
    exact ⟨fun _ => .inl ⟨claim, member, fails⟩,
      fun _ all => absurd all notAll⟩
  · have all : ∀ claim ∈ after.claims, isBound claim = true := by
      simpa using unbound
    exact ⟨fun implies => .inr (implies all),
      fun either _ => either.resolve_left unbound⟩

/-! ### A run on a bound claim, and one on an old list -/

/-- A Workload with one resource. -/
def databaseWorkload : Workload where
  metadata := { name := "web", ns := "default", uid := "u1", generation := 1 }
  spec := { resources := .ofList [("db", { type := "postgres" })] }
  status := default

/-- A cluster in which the claim of that resource is bound. -/
def boundStore : Store :=
  Store.empty.insert .resourceClaim
    { newClaim databaseWorkload "db"
        (desiredClaimSpec databaseWorkload "db" { type := "postgres" }) with
      status :=
        { phase := .bound
          outputs := some { uri := some "postgres://db" }
          outputsAvailable := true } }

/-- The phase with every list answered from the store it started in. -/
@[irreducible] def claimPhaseFrom (store : Store) :
    List (EventOn CachedStore) × Outcome (PhaseContext × PhaseResult) × CachedStore :=
  (executeClaimPhase quietSettings { workload := databaseWorkload }).execute
    (serveFrom store) [] { current := store, past := [] }

/-- What that phase returned. -/
def claimPhaseResult (store : Store) : PhaseContext × PhaseResult :=
  (claimPhaseFrom store).2.1.getD default

theorem runs_claimPhaseFrom (store : Store)
    (returned : (claimPhaseFrom store).2.1 = .returned (claimPhaseResult store)) :
    (executeClaimPhase quietSettings { workload := databaseWorkload }).Runs cachedServer
      { current := store, past := [] } (claimPhaseFrom store).1
      (.returned ((claimPhaseResult store).1, (claimPhaseResult store).2))
      (claimPhaseFrom store).2.2 := by
  have computed := runs_execute (serveFrom store)
    (executeClaimPhase quietSettings { workload := databaseWorkload }) []
    { current := store, past := [] }
  have cached := runs_cachedServer_of_snapshot computed (.head _)
  rw [← returned]
  unfold claimPhaseFrom
  exact cached

/-- With the claim bound before the phase, it reports ready rightly. -/
theorem claimPhase_covers_bound_claim :
    (claimPhaseResult boundStore).1.claimAgg.ready = true ∧
      CoversSpec (claimPhaseFrom boundStore).2.2.current databaseWorkload := by
  have run := runs_claimPhaseFrom boundStore (by decide +kernel)
  have ready : (claimPhaseResult boundStore).1.claimAgg.ready = true := by
    decide +kernel
  have served : ∀ key ∈ databaseWorkload.spec.resources.keys,
      ServedBefore boundStore databaseWorkload key := by
    decide +kernel
  exact ⟨ready, (claimPhase_covers_spec_iff run (by decide +kernel)).mpr
    (.inr served) ready⟩

/-- The phase creates the claim, lists the snapshot from before that and reports
ready with no claim at all. -/
theorem claimPhase_ready_on_old_list :
    ∃ (after : PhaseContext) (result : PhaseResult) (final : CachedStore)
      (events : List (EventOn CachedStore)),
      (executeClaimPhase quietSettings { workload := databaseWorkload }).Runs cachedServer
        { current := Store.empty, past := [] } events
        (.returned (after, result)) final ∧
      result.error = none ∧ after.claims = [] ∧ after.claimAgg.ready = true ∧
      "db" ∈ databaseWorkload.spec.resources.keys ∧
      ¬ CoversSpec final.current databaseWorkload := by
  have run := runs_claimPhaseFrom .empty (by decide +kernel)
  refine ⟨_, _, _, _, run, ?_⟩
  decide +kernel

end ScoreOrchestrator.Controller
