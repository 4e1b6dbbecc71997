/-
Module: Proofs.BackendSelection
Purpose: The best of some backends, and backend selection under an accepted
  configuration: when it fails, what it selects, and that the order of backends does not
  matter.
-/
import Mathlib.Data.String.Basic
import ScoreOrchestrator.Config.Validation
import ScoreOrchestrator.Selection.Selector

namespace ScoreOrchestrator.Selection

open Foundation
open Config

variable {libraries : Libraries} {profiles : List ProfileSpec} {name : String}
  {config : OrchestratorConfig} {profile : ProfileSpec}

/-! ### The comparison of backends -/

/-- The comparison as a lexicographic one: priority downwards, version downwards with
the invalid ones last, ID upwards. -/
def compareBackends (libraries : Libraries) : BackendSpec → BackendSpec → Ordering :=
  compareLex (comparedBy (fun backend => backend.priority) (descending compare))
    (compareLex
      (comparedBy (fun backend => libraries.semver.newVersion backend.version)
        (descending (optionCmp libraries.semver.compare)))
      (comparedBy (fun backend => backend.backendId) compare))

instance compareBackends_trans (libraries : Libraries) : Std.TransCmp (compareBackends libraries) :=
  have := libraries.semver.trans
  inferInstanceAs (Std.TransCmp (compareLex _ (compareLex _ _)))

section

variable (libraries : Libraries) (a b : BackendSpec)

/-- The nested conditions of the source are that comparison. -/
theorem precedes_iff : precedes libraries a b = true ↔ compareBackends libraries a b = .lt := by
  have := libraries.semver.trans
  have swapped : ∀ first second, libraries.semver.compare second first =
      (libraries.semver.compare first second).swap :=
    fun first second => Std.OrientedCmp.eq_swap
  simp only [compareBackends, compareLex, Ordering.then_eq_lt, comparedBy, descending,
    compare_lt_iff_lt, compare_eq_iff_eq]
  unfold precedes
  by_cases same : a.priority = b.priority
  · simp only [same, ne_eq, not_true_eq_false, if_false, lt_self_iff_false, true_and, false_or]
    cases libraries.semver.newVersion a.version with
    | none => cases libraries.semver.newVersion b.version <;> simp [optionCmp]
    | some versionA =>
      cases libraries.semver.newVersion b.version with
      | none => simp [optionCmp]
      | some versionB =>
        simp only [optionCmp, swapped versionA versionB]
        cases libraries.semver.compare versionA versionB <;> simp
  · simp [same, Ne.symm same]

/-- Sorting by it is sound. -/
theorem precedes_strict :
    IsStrictWeakOrder BackendSpec fun a b => precedes libraries a b = true := by
  have strict := isStrictWeakOrder_of_transCmp (compareBackends libraries)
  simpa only [← precedes_iff] using strict

/-- Two backends that do not precede each other have the same ID. -/
theorem backendId_eq_of_not_precedes (notBefore : precedes libraries a b = false)
    (notAfter : precedes libraries b a = false) : a.backendId = b.backendId := by
  rw [← Bool.not_eq_true, precedes_iff] at notBefore notAfter
  have equal := compared_eq notBefore notAfter
  simp only [compareBackends, compareLex, Ordering.then_eq_eq, comparedBy] at equal
  exact Std.LawfulEqCmp.compare_eq_iff_eq.mp equal.2.2

end

/-- The best of some backends with distinct IDs does not depend on how they are
listed. -/
theorem selectAmong_perm (libraries : Libraries) {backends others : List BackendSpec}
    (distinct : (backendIdsOf backends).Nodup) (permuted : backends.Perm others) :
    selectAmong libraries backends = selectAmong libraries others := by
  apply libraries.slice.best_perm libraries.slice (precedes_strict libraries) permuted
  intro first member second secondMember notBefore notAfter
  exact List.inj_on_of_nodup_map distinct member secondMember
    (backendId_eq_of_not_precedes libraries first second notBefore notAfter)

/-! ### The best backend -/

/-- Neither version is valid, or both are and have the same precedence. -/
def SameVersion (semver : Semver) (c b : BackendSpec) : Prop :=
  match semver.newVersion c.version, semver.newVersion b.version with
  | none, none => True
  | some versionC, some versionB => semver.compare versionC versionB = .eq
  | _, _ => False

/-- The ways in which one backend is to be preferred to another. -/
inductive Better (semver : Semver) (c b : BackendSpec) : Prop where
  | priority (higher : c.priority > b.priority)
  | valid (tied : c.priority = b.priority)
      (valid : (semver.newVersion c.version).isSome = true)
      (invalid : semver.newVersion b.version = none)
  | version {versionC versionB : semver.Version} (tied : c.priority = b.priority)
      (parsed : semver.newVersion c.version = some versionC)
      (parsedToo : semver.newVersion b.version = some versionB)
      (higher : semver.compare versionC versionB = .gt)
  | backendId (tied : c.priority = b.priority) (level : SameVersion semver c b)
      (smaller : c.backendId < b.backendId)

/-- The comparison that the backends are sorted by prefers the better one. -/
theorem precedes_of_better {c b : BackendSpec} (better : Better libraries.semver c b) :
    precedes libraries c b = true := by
  unfold precedes
  cases better with
  | priority higher =>
    rw [if_pos (ne_of_gt higher)]
    exact decide_eq_true higher
  | valid tied valid invalid =>
    obtain ⟨version, parsed⟩ := Option.isSome_iff_exists.mp valid
    simp only [tied, ne_eq, not_true_eq_false, if_false, parsed, invalid]
  | version tied parsed parsedToo higher =>
    simp only [tied, ne_eq, not_true_eq_false, if_false, parsed, parsedToo, higher]
  | backendId tied level smaller =>
    unfold SameVersion at level
    simp only [tied, ne_eq, not_true_eq_false, if_false]
    split at level
    next parsed parsedToo =>
      simp only [parsed, parsedToo]
      exact decide_eq_true smaller
    next versionC versionB parsed parsedToo =>
      simp only [parsed, parsedToo, level]
      exact decide_eq_true smaller
    · cases level

/-- Of some candidates one is selected that no other is better than, and the comparison
by which they are sorted is one that can be sorted by. -/
theorem selectAmong_best (libraries : Libraries) {candidates : List BackendSpec}
    (nonempty : candidates ≠ []) :
    (IsStrictWeakOrder BackendSpec fun a b => precedes libraries a b = true) ∧
      ∃ b ∈ candidates, selectAmong libraries candidates = some b ∧
        ∀ c ∈ candidates, ¬ Better libraries.semver c b := by
  have strict := precedes_strict libraries
  obtain ⟨b, picked⟩ := Option.isSome_iff_exists.mp
    (libraries.slice.best_isSome (precedes libraries) nonempty)
  refine ⟨strict, b, libraries.slice.mem_of_best picked, picked, ?_⟩
  intro c member better
  have notBefore := libraries.slice.not_less_best strict picked member
  rw [precedes_of_better better] at notBefore
  cases notBefore

/-! ### Quantities do not depend on the order of the containers -/

theorem wrapInt64_add (first second : Int) :
    wrapInt64 (wrapInt64 first + second) = wrapInt64 (first + second) := by
  simp [wrapInt64]

theorem totalRequests_order (first second : IterOrder) (workload : Workload) (resource : String) :
    totalRequests first workload resource = totalRequests second workload resource := by
  have permuted := (first.perm workload.spec.containers.rows).trans
    (second.perm workload.spec.containers.rows).symm
  apply permuted.foldl_eq'
  rintro ⟨_, early⟩ _ ⟨_, late⟩ _ total
  dsimp only
  cases requestOf resource early <;> cases requestOf resource late <;>
    simp only [wrapInt64_add, Int.add_right_comm]

theorem passesFilters_order (libraries : Libraries) (first second : IterOrder)
    (workload : Workload) :
    passesFilters libraries first workload = passesFilters libraries second workload := by
  have totals : calculateWorkloadResources first workload =
      calculateWorkloadResources second workload := by
    simp only [calculateWorkloadResources, totalRequests_order first second]
  have constrained : validateResourceConstraints first workload =
      validateResourceConstraints second workload := by
    funext constraints
    simp only [validateResourceConstraints, totals]
  funext backend
  simp only [passesFilters, constrained]

/-- Map entries are read in any order. -/
theorem selectBackend_order (libraries : Libraries) (first second : IterOrder)
    (config : OrchestratorConfig) (workload : Workload) :
    selectBackend libraries first config workload =
      selectBackend libraries second config workload := by
  unfold selectBackend filterBackends
  rw [passesFilters_order libraries first second]

/-! ### The choice of a profile -/

/-- The first profile whose name qualifies, by name. -/
theorem map_name_find? (profiles : List ProfileSpec) (wanted : String → Bool) :
    (profiles.find? fun profile => wanted profile.name).map (fun profile => profile.name) =
      (profileNamesOf profiles).find? wanted := by
  rw [profileNamesOf, List.find?_map]
  rfl

/-- A text that was found, or the empty one. -/
theorem mem_of_getD_ne_empty {found : Option String} {texts : List String}
    (listed : ∀ text ∈ found, text ∈ texts) (given : found.getD "" ≠ "") :
    found.getD "" ∈ texts := by
  cases found with
  | none => exact absurd rfl given
  | some text => exact listed text rfl

section

variable (libraries : Libraries) {config : OrchestratorConfig} (coherent : Coherent config)
  (workload : Workload)

include coherent

/-- Without a hint, a coherent configuration always names one of its profiles. -/
theorem selectProfileUnhinted_ok :
    ∃ name ∈ profileNamesOf config.spec.profiles,
      selectProfileUnhinted libraries config workload = .ok name := by
  unfold selectProfileUnhinted
  dsimp only
  split
  next derived =>
    refine ⟨_, mem_of_getD_ne_empty (fun name found => ?_) derived, rfl⟩
    rw [map_name_find? _ fun name => (profileWords workload).any fun word =>
      contains (libraries.toLower name) word] at found
    exact List.mem_of_find?_eq_some found
  next =>
    split
    next selected =>
      refine ⟨_, mem_of_getD_ne_empty (fun name found => ?_) selected, rfl⟩
      obtain ⟨selector, picked, rfl⟩ := Option.map_eq_some_iff.mp found
      have matched := List.find?_some picked
      simp only [Bool.and_eq_true, decide_eq_true_eq] at matched
      exact coherent.selectors selector (List.mem_of_find?_eq_some picked) matched.2
    next =>
      have given : config.spec.defaults.profile ≠ "" := fun missing =>
        coherent.named (missing ▸ coherent.default_)
      rw [if_pos given]
      exact ⟨_, coherent.default_, rfl⟩

/-- The choice fails for a hint that names no profile, and only then. -/
theorem selectProfile_cases :
    (∃ hint fault, profileHint workload = some hint ∧
        hint ∉ profileNamesOf config.spec.profiles ∧
        selectProfile libraries config workload = .error fault) ∨
      ∃ name ∈ profileNamesOf config.spec.profiles,
        (∀ hint, profileHint workload = some hint → hint = name) ∧
        selectProfile libraries config workload = .ok name := by
  unfold selectProfile
  split
  next hint hinted =>
    by_cases known : hint ∈ profileNamesOf config.spec.profiles
    · refine .inr ⟨hint, known, fun other same => ?_, if_pos ?_⟩
      · exact Option.some.inj (same.symm.trans hinted)
      · simpa [profileNamesOf, List.any_eq_true] using known
    · refine .inl ⟨hint, _, hinted, known, if_neg ?_⟩
      simpa [profileNamesOf, List.any_eq_true] using known
  next unhinted =>
    obtain ⟨name, member, chosen⟩ := selectProfileUnhinted_ok libraries coherent workload
    refine .inr ⟨name, member, fun hint hinted => ?_, chosen⟩
    rw [unhinted] at hinted
    cases hinted

end

/-- The profile whose backends are considered. -/
def chosenProfile (libraries : Libraries) (config : OrchestratorConfig) (workload : Workload) :
    Option ProfileSpec :=
  (selectProfile libraries config workload).toOption.bind fun name =>
    config.spec.profiles.find? fun profile => profile.name = name

/-- A profile that is named is found. -/
theorem exists_find?_of_mem (member : name ∈ profileNamesOf profiles) :
    ∃ profile, profiles.find? (fun profile => profile.name = name) = some profile ∧
      profile ∈ profiles := by
  obtain ⟨listed, listedMember, rfl⟩ := List.mem_map.mp member
  cases found : profiles.find? fun profile => profile.name = listed.name with
  | none =>
    have absent := List.find?_eq_none.mp found listed listedMember
    simp at absent
  | some profile => exact ⟨profile, rfl, List.mem_of_find?_eq_some found⟩

/-! ### The choice of a backend -/

theorem profileHint_eq_some {workload : Workload} {hint : String} :
    profileHint workload = some hint ↔
      workload.metadata.annotations.get? "score.dev/profile" = some hint ∧ hint ≠ "" := by
  simp [profileHint, Option.filter_eq_some_iff]

/-- The Workload asks for a profile that is not there. -/
def HintsAstray (config : OrchestratorConfig) (workload : Workload) : Prop :=
  ∃ hint, workload.metadata.annotations.get? "score.dev/profile" = some hint ∧
    hint ≠ "" ∧ ∀ profile ∈ config.spec.profiles, profile.name ≠ hint

/-- The failure of a profile none of whose backends passes the filters. -/
def noCandidates (profileName : String) : GoError :=
  { text := "no suitable backend candidates found for profile \"" ++ profileName ++ "\"" }

/-- The selection, given the profile. -/
theorem selectBackend_of_profile {workload : Workload}
    (named : selectProfile libraries config workload = .ok name)
    (found : config.spec.profiles.find? (fun profile => profile.name = name) = some profile)
    (order : IterOrder) :
    (filterBackends libraries order workload profile.backends = [] ∧
        selectBackend libraries order config workload = .error (noCandidates name)) ∨
      ∃ backend, backend ∈ filterBackends libraries order workload profile.backends ∧
        selectBackend libraries order config workload = .ok (.ofSpec backend) := by
  unfold selectBackend
  simp only [named, found]
  split
  next empty => exact .inl ⟨List.isEmpty_iff.mp empty, rfl⟩
  next some_ =>
    have nonempty : filterBackends libraries order workload profile.backends ≠ [] :=
      fun empty => some_ (List.isEmpty_iff.mpr empty)
    obtain ⟨backend, picked⟩ := Option.isSome_iff_exists.mp
      (libraries.slice.best_isSome (precedes libraries) nonempty)
    refine .inr ⟨backend, libraries.slice.mem_of_best picked, ?_⟩
    rw [selectAmong, picked]

/-- How a selection under a coherent configuration can end. -/
theorem selectBackend_cases (coherent : Coherent config) (order : IterOrder) (workload : Workload) :
    (HintsAstray config workload ∧ chosenProfile libraries config workload = none ∧
        ∃ fault, selectBackend libraries order config workload = .error fault) ∨
      ∃ profile, ¬HintsAstray config workload ∧
        chosenProfile libraries config workload = some profile ∧
        ((filterBackends libraries order workload profile.backends = [] ∧
            ∃ fault, selectBackend libraries order config workload = .error fault) ∨
          ∃ backend, backend ∈ filterBackends libraries order workload profile.backends ∧
            selectBackend libraries order config workload = .ok (.ofSpec backend)) := by
  rcases selectProfile_cases libraries coherent workload with
    ⟨hint, fault, hinted, unknown, failed⟩ | ⟨name, member, same, named⟩
  · obtain ⟨annotated, given⟩ := profileHint_eq_some.mp hinted
    refine .inl ⟨⟨hint, annotated, given, fun profile listed equal => ?_⟩, ?_, ?_⟩
    · exact unknown (List.mem_map.mpr ⟨profile, listed, equal⟩)
    · simp [chosenProfile, failed, Except.toOption]
    · exact ⟨fault.wrap "profile selection failed: ", by simp [selectBackend, failed]⟩
  · obtain ⟨profile, found, listed⟩ := exists_find?_of_mem member
    have ends := selectBackend_of_profile named found order
    refine .inr ⟨profile, ?_, ?_, ends.imp_left fun ⟨empty, failed⟩ => ⟨empty, _, failed⟩⟩
    · rintro ⟨hint, annotated, given, unknown⟩
      have hinted := same hint (profileHint_eq_some.mpr ⟨annotated, given⟩)
      obtain ⟨other, otherListed, otherNamed⟩ := List.mem_map.mp member
      exact unknown other otherListed (otherNamed.trans hinted.symm)
    · simp [chosenProfile, named, found, Except.toOption]

/-! ### The order of the backends -/

/-- The same profile with its backends in some other order. -/
def SameBackends (profile other : ProfileSpec) : Prop :=
  profile.name = other.name ∧ profile.backends.Perm other.backends

/-- The same configuration with the backends of each profile in some other order. -/
structure Relisted (config other : OrchestratorConfig) : Prop where
  apiVersion : other.apiVersion = config.apiVersion
  kind : other.kind = config.kind
  metadata : other.metadata = config.metadata
  provisioners : other.spec.provisioners = config.spec.provisioners
  defaults : other.spec.defaults = config.spec.defaults
  profiles : List.Forall₂ SameBackends config.spec.profiles other.spec.profiles

theorem profileNamesOf_of_sameBackends {others : List ProfileSpec}
    (same : List.Forall₂ SameBackends profiles others) :
    profileNamesOf others = profileNamesOf profiles := by
  induction same with
  | nil => rfl
  | cons head _ ih => exact congrArg₂ List.cons head.1.symm ih

theorem find?_of_sameBackends {others : List ProfileSpec}
    (same : List.Forall₂ SameBackends profiles others)
    (found : profiles.find? (fun profile => profile.name = name) = some profile) :
    ∃ twin, others.find? (fun profile => profile.name = name) = some twin ∧
      profile.backends.Perm twin.backends := by
  induction same with
  | nil => cases found
  | @cons first second _ _ head _ ih =>
    rw [List.find?_cons] at found ⊢
    rw [← head.1]
    split at found
    · cases found
      exact ⟨second, rfl, head.2⟩
    · exact ih found

theorem Relisted.selectProfile_eq {other : OrchestratorConfig} (relisted : Relisted config other)
    (libraries : Libraries) (workload : Workload) :
    selectProfile libraries other workload = selectProfile libraries config workload := by
  have names := profileNamesOf_of_sameBackends relisted.profiles
  have hinted : ∀ hint, (other.spec.profiles.any fun profile => profile.name = hint) =
      config.spec.profiles.any fun profile => profile.name = hint := by
    intro hint
    have listed := congrArg (List.any · fun name => name = hint) names
    simpa [profileNamesOf, List.any_map, Function.comp_def] using listed
  have derived : deriveProfileFromWorkload libraries other workload =
      deriveProfileFromWorkload libraries config workload := by
    unfold deriveProfileFromWorkload
    rw [map_name_find? _ fun name => (profileWords workload).any fun word =>
        contains (libraries.toLower name) word,
      map_name_find? _ fun name => (profileWords workload).any fun word =>
        contains (libraries.toLower name) word, names]
  have unhinted : selectProfileUnhinted libraries other workload =
      selectProfileUnhinted libraries config workload := by
    unfold selectProfileUnhinted selectProfileFromSelectors
    rw [derived, relisted.defaults]
  unfold selectProfile
  cases profileHint workload with
  | none => exact unhinted
  | some hint => simp only [hinted]

/-- Backends that pass the filters have distinct IDs. -/
theorem candidates_distinct (coherent : Coherent config) (listed : profile ∈ config.spec.profiles)
    (libraries : Libraries) (order : IterOrder) (workload : Workload) :
    (backendIdsOf (filterBackends libraries order workload profile.backends)).Nodup := by
  have distinct := (List.nodup_flatMap.mp coherent.ids).1 profile listed
  exact distinct.sublist (List.filter_sublist.map _)

/-- Neither the order of the backends nor that of map entries can be seen. -/
theorem selectBackend_relisted {other : OrchestratorConfig} (coherent : Coherent config)
    (relisted : Relisted config other) (libraries : Libraries) (order otherOrder : IterOrder)
    (workload : Workload) :
    selectBackend libraries otherOrder other workload =
      selectBackend libraries order config workload := by
  have profiles := relisted.selectProfile_eq libraries workload
  rcases selectProfile_cases libraries coherent workload with
    ⟨_, _, _, _, failed⟩ | ⟨name, member, _, named⟩
  · simp only [selectBackend, profiles, failed]
  · obtain ⟨profile, found, listed⟩ := exists_find?_of_mem member
    obtain ⟨twin, foundTwin, permuted⟩ := find?_of_sameBackends relisted.profiles found
    have candidates : (filterBackends libraries order workload profile.backends).Perm
        (filterBackends libraries otherOrder workload twin.backends) := by
      unfold filterBackends
      rw [passesFilters_order libraries otherOrder order]
      exact permuted.filter _
    have best := selectAmong_perm libraries
      (candidates_distinct coherent listed libraries order workload) candidates
    have empty : (filterBackends libraries order workload profile.backends).isEmpty =
        (filterBackends libraries otherOrder workload twin.backends).isEmpty := by
      rw [Bool.eq_iff_iff, List.isEmpty_iff_length_eq_zero, List.isEmpty_iff_length_eq_zero,
        candidates.length_eq]
    simp only [selectBackend, profiles, named, found, foundTwin, best, empty]

/-- Selection on accepted configurations.  It fails exactly for a hint that names no
profile or if no backend of the chosen profile passes the filters; otherwise it selects
one that does, and always the same one however the backends are listed. -/
theorem selectBackend_of_validate (libraries : Libraries) {v : Validator}
    {config : OrchestratorConfig} (accepted : validate v config = .ok ()) (order : IterOrder)
    (workload : Workload) :
    ((∃ fault, selectBackend libraries order config workload = .error fault) ↔
      (∃ hint, workload.metadata.annotations.get? "score.dev/profile" = some hint ∧
          hint ≠ "" ∧ ∀ profile ∈ config.spec.profiles, profile.name ≠ hint) ∨
        ∃ profile, chosenProfile libraries config workload = some profile ∧
          filterBackends libraries order workload profile.backends = []) ∧
    (∀ selected, selectBackend libraries order config workload = .ok selected →
      ∃ profile, chosenProfile libraries config workload = some profile ∧
        ∃ backend ∈ profile.backends,
          passesFilters libraries order workload backend = true ∧
            selected = .ofSpec backend) ∧
    ∀ other otherOrder, Relisted config other →
      selectBackend libraries otherOrder other workload =
        selectBackend libraries order config workload := by
  have coherent := coherent_of_validate accepted
  refine ⟨?_, ?_, fun other otherOrder relisted =>
    selectBackend_relisted coherent relisted libraries order otherOrder workload⟩
  · rcases selectBackend_cases coherent order workload with
      ⟨astray, _, failed⟩ | ⟨profile, hinted, chosen, ⟨empty, failed⟩ | ⟨backend, member, done⟩⟩
    · exact iff_of_true failed (.inl astray)
    · exact iff_of_true failed (.inr ⟨profile, chosen, empty⟩)
    · refine iff_of_false ?_ ?_
      · rintro ⟨fault, failed⟩
        rw [done] at failed
        cases failed
      · rintro (astray | ⟨other, otherChosen, empty⟩)
        · exact hinted astray
        · cases chosen.symm.trans otherChosen
          rw [empty] at member
          cases member
  · intro selected done
    rcases selectBackend_cases coherent order workload with
      ⟨_, _, fault, failed⟩ | ⟨profile, _, chosen, ⟨_, fault, failed⟩ | ⟨backend, member, same⟩⟩
    · cases done.symm.trans failed
    · cases done.symm.trans failed
    · cases same.symm.trans done
      obtain ⟨listed, passes⟩ := List.mem_filter.mp member
      exact ⟨profile, chosen, backend, listed, passes, rfl⟩

/-! ### A configuration with two backends -/

/-- Libraries for versions that are plain numbers. -/
def plainLibraries : Libraries where
  semver :=
    { Version := Int
      newVersion text := parseInt text.toList
      compare := compare
      trans := inferInstance }
  slice := .insertion
  toLower text := .ofList (text.toList.map Char.toLower)
  toUpper text := .ofList (text.toList.map Char.toUpper)
  trimSpace := id
  isQualifiedName _ := true
  isValidLabelValue _ := true

def plainValidator : Validator where
  order := .entryOrder
  isDNS1123Label _ := []

def webBackend (backendId version : String) : BackendSpec where
  backendId := backendId
  runtimeClass := "kubernetes"
  template := { kind := "manifests", ref := "oci://web" }
  priority := 10
  version := version

/-- One profile with these backends, which is also the default. -/
def webConfig (backends : List BackendSpec) : OrchestratorConfig where
  apiVersion := "score.dev/v1b1"
  kind := "OrchestratorConfig"
  metadata := { name := "config" }
  spec :=
    { profiles := [{ name := "web-service", backends }]
      defaults := { profile := "web-service" } }

def webWorkload : Workload where
  metadata := { name := "web", ns := "default" }
  spec := { service := some { ports := [{ port := 80 }] } }
  status := default

theorem relisted_webConfig :
    Relisted (webConfig [webBackend "old" "1", webBackend "new" "2"])
      (webConfig [webBackend "new" "2", webBackend "old" "1"]) where
  apiVersion := rfl
  kind := rfl
  metadata := rfl
  provisioners := rfl
  defaults := rfl
  profiles := .cons ⟨rfl, .swap _ _ _⟩ .nil

/-- Of a release and of what is no version the release is selected. -/
theorem selectAmong_best_web :
    ∃ b, selectAmong plainLibraries [webBackend "nightly" "latest", webBackend "new" "2"] =
        some b ∧ b.backendId = "new" := by
  have nonempty : [webBackend "nightly" "latest", webBackend "new" "2"] ≠ [] := by simp
  obtain ⟨_, b, member, picked, best⟩ := selectAmong_best plainLibraries nonempty
  refine ⟨b, picked, ?_⟩
  simp only [List.mem_cons, List.not_mem_nil, or_false] at member
  rcases member with rfl | rfl
  · exact absurd (.valid rfl (by decide +kernel) (by decide +kernel))
      (best (webBackend "new" "2") (by simp))
  · rfl

/-- The newer backend is selected, whichever is listed first. -/
theorem selectBackend_of_validate_web :
    (selectBackend plainLibraries .entryOrder
        (webConfig [webBackend "old" "1", webBackend "new" "2"]) webWorkload).toOption.map
          (fun selected => selected.backendID) = some "new" ∧
      selectBackend plainLibraries .entryOrder
          (webConfig [webBackend "new" "2", webBackend "old" "1"]) webWorkload =
        selectBackend plainLibraries .entryOrder
          (webConfig [webBackend "old" "1", webBackend "new" "2"]) webWorkload := by
  have accepted : validate plainValidator
      (webConfig [webBackend "old" "1", webBackend "new" "2"]) = .ok () := by
    decide +kernel
  exact ⟨by decide +kernel,
    (selectBackend_of_validate plainLibraries accepted .entryOrder webWorkload).2.2 _ _
      relisted_webConfig⟩

end ScoreOrchestrator.Selection
