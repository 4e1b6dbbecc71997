/-
Module: Api.MergePatch
Purpose: What a merge patch leaves, in particular one that meets the very object it
  was computed from.
Main exports: get?_mergeMap_self, Patched, apiServer_patched, apiServer_statusPatched
-/
import ScoreOrchestrator.Api.ServerLaws

namespace ScoreOrchestrator

open Foundation

variable {kind : Kind} {base sent updated : kind.Object} {before after : Store}

/-! ### Fields and maps -/

theorem mergeField_self {α : Type} [DecidableEq α] (base modified : α) :
    mergeField base modified base = modified := by
  unfold mergeField
  split
  next same => exact same.symm
  · rfl

/-- Lookup in a merged map: what the client changed is set or gone, the rest stays. -/
theorem get?_mergeMap (base modified stored : GoMap String) (key : String) :
    (mergeMap base modified stored).get? key =
      match modified.get? key with
      | some value => if base.get? key = some value then stored.get? key else some value
      | none => if key ∈ base.keys then none else stored.get? key := by
  let changed := modified.rows.filter fun entry => !decide (base.get? entry.1 = some entry.2)
  let dropped := base.keys.filter fun key => (modified.get? key).isNone
  have distinct : (changed.map Prod.fst).Nodup :=
    (List.filter_sublist.map Prod.fst).nodup modified.nodup
  have merged : mergeMap base modified stored =
      changed.foldl (fun entries entry => entries.set entry.1 entry.2)
        (dropped.foldl (fun entries name => entries.erase name) stored) := by
    rw [List.foldl_filter]
    dsimp only [mergeMap]
    congr 1
    funext entries entry
    by_cases same : base.get? entry.1 = some entry.2 <;> simp [same]
  have lookup : ∀ value, (GoMap.ofList changed).get? key = some value ↔
      modified.get? key = some value ∧ base.get? key ≠ some value := by
    intro value
    rw [GoMap.get?_ofList_eq_some distinct, List.mem_filter]
    simp [GoMap.get?_eq_some]
  rw [merged, GoMap.get?_foldl_set, GoMap.get?_foldl_erase]
  cases asked : modified.get? key with
  | some value =>
    have kept : key ∉ dropped := fun member => by
      have gone := (List.mem_filter.mp member).2
      rw [asked] at gone
      cases gone
    rw [if_neg kept]
    by_cases same : base.get? key = some value
    · have unsent : (GoMap.ofList changed).get? key = none := by
        rw [Option.eq_none_iff_forall_ne_some]
        intro other found
        obtain ⟨held, differs⟩ := (lookup other).mp found
        rw [asked] at held
        cases held
        exact differs same
      simp [unsent, same]
    · simp [(lookup value).mpr ⟨asked, same⟩, same]
  | none =>
    have unsent : (GoMap.ofList changed).get? key = none := by
      rw [Option.eq_none_iff_forall_ne_some]
      intro other found
      have held := ((lookup other).mp found).1
      rw [asked] at held
      cases held
    have listed : key ∈ dropped ↔ key ∈ base.keys := by
      rw [List.mem_filter, asked]
      simp
    simp [unsent, listed]

theorem get?_mergeMap_self (base modified : GoMap String) (key : String) :
    (mergeMap base modified base).get? key = modified.get? key := by
  rw [get?_mergeMap]
  cases asked : modified.get? key with
  | some value =>
    dsimp only
    split
    next same => exact same
    · rfl
  | none =>
    dsimp only
    split
    · rfl
    next absent =>
      rw [Option.eq_none_iff_forall_ne_some]
      intro value found
      exact absent (List.mem_map.mpr ⟨_, GoMap.get?_eq_some.mp found, rfl⟩)

/-! ### Patches -/

/-- A successful patch replaces whatever version is stored. -/
theorem apiServer_patch_ok (served : apiServer (.patch kind base sent) before (.ok updated) after) :
    ∃ stored, before.find? kind sent.key = some stored ∧
      before.replace kind stored (Resource.patchedBy kind base sent stored) =
        (.ok updated, after) := by
  have carriedOut := serve_of_ok served
  simp only [serve, Store.replaceAny] at carriedOut
  split at carriedOut
  · cases carriedOut
  next stored found => exact ⟨stored, found, carriedOut⟩

/-- What a patch of the version it was computed from leaves. -/
structure Patched {kind : Kind} (base sent next : kind.Object) : Prop where
  spec : next.spec = mergeSpec kind base.spec sent.spec base.spec
  labels : ∀ key, next.metadata.labels.get? key = sent.metadata.labels.get? key
  annotations : ∀ key,
    next.metadata.annotations.get? key = sent.metadata.annotations.get? key
  ownerReferences : next.metadata.ownerReferences = sent.metadata.ownerReferences
  finalizers : next.metadata.finalizers = sent.metadata.finalizers

section

variable (found : before.find? kind sent.key = some base)
include found

/-- A successful patch computed from the stored version stores what it makes of that
version, under a new revision. -/
theorem apiServer_patched_finds (held : sent.metadata.finalizers = base.metadata.finalizers)
    (served : apiServer (.patch kind base sent) before (.ok updated) after) :
    ∃ revision, after.find? kind sent.key =
      some (Store.stamp revision (Resource.patchedBy kind base sent base)) := by
  obtain ⟨stored, foundStored, replaced⟩ := apiServer_patch_ok served
  rw [found] at foundStored
  cases foundStored
  obtain ⟨member, named⟩ := Store.find?_eq_some.mp found
  let next := Resource.patchedBy kind base sent base
  have keys : next.key = sent.key := named
  have finalizers : next.metadata.finalizers = sent.metadata.finalizers :=
    mergeField_self base.metadata.finalizers sent.metadata.finalizers
  have unreleased : next.isReleased = false := by
    have live := before.live kind base member
    unfold Resource.isReleased at live ⊢
    rw [finalizers, held]
    exact live
  rw [← keys] at found ⊢
  exact Store.find?_replace replaced found unreleased

theorem apiServer_patched (held : sent.metadata.finalizers = base.metadata.finalizers)
    (served : apiServer (.patch kind base sent) before (.ok updated) after) :
    ∃ next, after.find? kind sent.key = some next ∧ Patched base sent next := by
  obtain ⟨revision, finds⟩ := apiServer_patched_finds found held served
  exact ⟨_, finds, rfl, get?_mergeMap_self _ _, get?_mergeMap_self _ _, mergeField_self _ _,
    mergeField_self _ _⟩

/-- A successful patch of a status computed from the stored version changes that version's
status and nothing else but its revision. -/
theorem apiServer_statusPatched
    (served : apiServer (.patchStatus kind base sent) before (.ok updated) after) :
    ∃ revision, after.find? kind sent.key =
      some (Store.stamp revision (Resource.statusPatchedBy kind base sent base)) := by
  have carriedOut := serve_of_ok served
  simp only [serve, Store.replaceAny, found] at carriedOut
  obtain ⟨member, named⟩ := Store.find?_eq_some.mp found
  let next := Resource.statusPatchedBy kind base sent base
  have keys : next.key = sent.key := named
  rw [← keys] at found ⊢
  exact Store.find?_replace carriedOut found (before.live kind base member)

end

end ScoreOrchestrator
