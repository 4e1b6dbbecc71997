/-
Module: Proofs.ProfileChoice
Purpose: When the profile that a Workload asks for in its spec is the one that its backend
  is selected from.
-/
import Mathlib.Data.List.Pairwise
import ScoreOrchestrator.Proofs.BackendSelection

namespace ScoreOrchestrator.Selection

open Foundation
open Config

/-- The ends of a selection that honour a profile: one of its backends, or the failure that
reports that none of them passes the filters. -/
inductive Honoured (libraries : Libraries) (order : IterOrder) (workload : Workload)
    (profile : ProfileSpec) : Except GoError SelectedBackend → Prop where
  | selected (backend : BackendSpec) (listed : backend ∈ profile.backends) :
      Honoured libraries order workload profile (.ok (.ofSpec backend))
  | exhausted (empty : filterBackends libraries order workload profile.backends = []) :
      Honoured libraries order workload profile (.error (noCandidates profile.name))

theorem noCandidates_injective {first second : String}
    (same : noCandidates first = noCandidates second) : first = second := by
  have texts := congrArg GoError.text same
  exact (String.append_right_inj _).mp ((String.append_left_inj _).mp texts)

section

variable {config : OrchestratorConfig} (coherent : Coherent config)

include coherent

/-- A name leads to the profile that has it. -/
theorem find?_profile {profile : ProfileSpec} (listed : profile ∈ config.spec.profiles) :
    config.spec.profiles.find? (fun other => other.name = profile.name) = some profile := by
  obtain ⟨found, isFound, foundListed⟩ :=
    exists_find?_of_mem (List.mem_map.mpr ⟨profile, listed, rfl⟩)
  have named : found.name = profile.name := by simpa using List.find?_some isFound
  rw [isFound, List.inj_on_of_nodup_map coherent.names foundListed listed named]

/-- Profiles that share the ID of a backend are the same. -/
theorem eq_of_shared_id {first second : ProfileSpec} (firstListed : first ∈ config.spec.profiles)
    (secondListed : second ∈ config.spec.profiles) {backend other : BackendSpec}
    (member : backend ∈ first.backends) (otherMember : other ∈ second.backends)
    (same : backend.backendId = other.backendId) : first = second := by
  by_contra different
  have symmetric : Std.Symm (Function.onFun List.Disjoint fun profile : ProfileSpec =>
      backendIdsOf profile.backends) := ⟨fun _ _ => List.disjoint_symm⟩
  have disjoint := (List.nodup_flatMap.mp coherent.ids).2.forall firstListed secondListed
    different
  exact disjoint (List.mem_map.mpr ⟨backend, member, rfl⟩)
    (List.mem_map.mpr ⟨other, otherMember, same.symm⟩)

/-- What is selected honours the profile it was selected from, and no other one. -/
theorem honoured_iff {libraries : Libraries} {workload : Workload} {name : String}
    {profile : ProfileSpec} (named : selectProfile libraries config workload = .ok name)
    (known : name ∈ profileNamesOf config.spec.profiles) (listed : profile ∈ config.spec.profiles)
    (order : IterOrder) :
    Honoured libraries order workload profile (selectBackend libraries order config workload) ↔
      name = profile.name := by
  obtain ⟨chosen, chosenListed, rfl⟩ := List.mem_map.mp known
  have ends := selectBackend_of_profile named (find?_profile coherent chosenListed) order
  constructor
  · intro honoured
    rcases ends with ⟨_, failed⟩ | ⟨backend, passed, done⟩
    · rw [failed] at honoured
      generalize reported : noCandidates chosen.name = fault at honoured
      cases honoured
      exact noCandidates_injective reported
    · rw [done] at honoured
      generalize reported : SelectedBackend.ofSpec backend = result at honoured
      cases honoured with
      | selected other member =>
        have ids : backend.backendId = other.backendId :=
          congrArg (fun selected => selected.backendID) reported
        rw [eq_of_shared_id coherent chosenListed listed (List.mem_filter.mp passed).1
          member ids]
  · intro same
    have isChosen : profile = chosen :=
      List.inj_on_of_nodup_map coherent.names listed chosenListed same.symm
    rw [isChosen]
    rcases ends with ⟨empty, failed⟩ | ⟨backend, passed, done⟩
    · rw [failed]
      exact .exhausted empty
    · rw [done]
      exact .selected backend (List.mem_filter.mp passed).1

end

theorem selectProfile_unhinted (libraries : Libraries) (config : OrchestratorConfig)
    {workload : Workload}
    (unhinted : workload.metadata.annotations.get? "score.dev/profile" = none) :
    selectProfile libraries config workload = selectProfileUnhinted libraries config workload := by
  unfold selectProfile profileHint
  rw [unhinted]
  rfl

/-! ### What decides without a request -/

/-- The name of the profile suits the Workload: it contains `web` or `service` if there are
service ports, and `batch` or `job` if there are none. -/
def Suits (libraries : Libraries) (workload : Workload) (profile : ProfileSpec) : Prop :=
  if ∃ service ∈ workload.spec.service, service.ports ≠ [] then
    contains (libraries.toLower profile.name) "web" = true ∨
      contains (libraries.toLower profile.name) "service" = true
  else
    contains (libraries.toLower profile.name) "batch" = true ∨
      contains (libraries.toLower profile.name) "job" = true

/-- The selector matches the labels of the Workload and names a profile. -/
def Applies (libraries : Libraries) (workload : Workload) (selector : SelectorSpec) : Prop :=
  selectorMatches libraries selector workload.metadata.labels = true ∧ selector.profile ≠ ""

/-- The name that a configuration gives a Workload by its ports and labels: of the first
profile with a suitable name, else of the first selector that applies, else the default. -/
inductive Favoured (libraries : Libraries) (config : OrchestratorConfig)
    (workload : Workload) : String → Prop where
  | byName {before after : List ProfileSpec} {profile : ProfileSpec}
      (listed : config.spec.profiles = before ++ profile :: after)
      (suits : Suits libraries workload profile)
      (first : ∀ other ∈ before, ¬ Suits libraries workload other) :
      Favoured libraries config workload profile.name
  | bySelector (unsuited : ∀ profile ∈ config.spec.profiles, ¬ Suits libraries workload profile)
      {before after : List SelectorSpec} {selector : SelectorSpec}
      (listed : config.spec.defaults.selectors = before ++ selector :: after)
      (applies : Applies libraries workload selector)
      (first : ∀ other ∈ before, ¬ Applies libraries workload other) :
      Favoured libraries config workload selector.profile
  | byDefault (unsuited : ∀ profile ∈ config.spec.profiles, ¬ Suits libraries workload profile)
      (unselected : ∀ selector ∈ config.spec.defaults.selectors,
        ¬ Applies libraries workload selector) :
      Favoured libraries config workload config.spec.defaults.profile

theorem suits_iff (libraries : Libraries) (workload : Workload) (profile : ProfileSpec) :
    ((profileWords workload).any fun word =>
      contains (libraries.toLower profile.name) word) = true ↔
        Suits libraries workload profile := by
  unfold profileWords Suits
  have ports : (workload.spec.service.any fun service => !service.ports.isEmpty) = true ↔
      ∃ service ∈ workload.spec.service, service.ports ≠ [] := by
    cases workload.spec.service <;> simp
  simp only [ports]
  split <;> simp

theorem applies_iff (libraries : Libraries) (workload : Workload) (selector : SelectorSpec) :
    (selectorMatches libraries selector workload.metadata.labels &&
      decide (selector.profile ≠ "")) = true ↔ Applies libraries workload selector := by
  rw [Bool.and_eq_true, decide_eq_true_eq]
  rfl

/-- The first element with a property, by its place in the list. -/
theorem find?_eq_some_iff_first {α : Type} {check : α → Bool} {holds : α → Prop}
    (checks : ∀ item, check item = true ↔ holds item) {items : List α} {item : α} :
    items.find? check = some item ↔
      holds item ∧ ∃ before after, items = before ++ item :: after ∧
        ∀ other ∈ before, ¬ holds other := by
  rw [List.find?_eq_some_iff_append]
  simp only [checks, Bool.not_eq_true', ← Bool.not_eq_true]

theorem find?_eq_none_iff {α : Type} {check : α → Bool} {holds : α → Prop}
    (checks : ∀ item, check item = true ↔ holds item) {items : List α} :
    items.find? check = none ↔ ∀ item ∈ items, ¬ holds item := by
  simp only [List.find?_eq_none, checks]

section

variable (config : OrchestratorConfig) (libraries : Libraries) (workload : Workload)

/-- Some name is favoured. -/
theorem exists_favoured : ∃ name, Favoured libraries config workload name := by
  have suits := suits_iff libraries workload
  have applies := applies_iff libraries workload
  cases derived : config.spec.profiles.find? fun profile =>
      (profileWords workload).any fun word => contains (libraries.toLower profile.name) word with
  | some profile =>
    obtain ⟨suitable, _, _, place, first⟩ := (find?_eq_some_iff_first suits).mp derived
    exact ⟨_, .byName place suitable first⟩
  | none =>
    have unsuited := (find?_eq_none_iff suits).mp derived
    cases picked : config.spec.defaults.selectors.find? fun selector =>
        selectorMatches libraries selector workload.metadata.labels &&
          decide (selector.profile ≠ "") with
    | some selector =>
      obtain ⟨applicable, _, _, place, first⟩ := (find?_eq_some_iff_first applies).mp picked
      exact ⟨_, .bySelector unsuited place applicable first⟩
    | none => exact ⟨_, .byDefault unsuited ((find?_eq_none_iff applies).mp picked)⟩

variable {config libraries workload} (coherent : Coherent config) {name : String}

include coherent

/-- The favoured name is chosen where there is no hint. -/
theorem Favoured.selected (favoured : Favoured libraries config workload name) :
    selectProfileUnhinted libraries config workload = .ok name := by
  have suits := suits_iff libraries workload
  have applies := applies_iff libraries workload
  unfold selectProfileUnhinted deriveProfileFromWorkload selectProfileFromSelectors
  cases favoured with
  | @byName _ _ profile place suitable first =>
    have listed : profile ∈ config.spec.profiles := place ▸ List.mem_append_right _ (.head _)
    have named : profile.name ≠ "" := fun missing =>
      coherent.named (List.mem_map.mpr ⟨profile, listed, missing⟩)
    simp [(find?_eq_some_iff_first suits).mpr ⟨suitable, _, _, place, first⟩, named]
  | bySelector unsuited place applicable first =>
    simp only [(find?_eq_none_iff suits).mpr unsuited,
      (find?_eq_some_iff_first applies).mpr ⟨applicable, _, _, place, first⟩]
    simp [applicable.2]
  | byDefault unsuited unselected =>
    have given : config.spec.defaults.profile ≠ "" := fun missing =>
      coherent.named (missing ▸ coherent.default_)
    simp only [(find?_eq_none_iff suits).mpr unsuited, (find?_eq_none_iff applies).mpr unselected]
    simp [given]

theorem selectProfileUnhinted_eq_ok :
    selectProfileUnhinted libraries config workload = .ok name ↔
      Favoured libraries config workload name := by
  refine ⟨fun chosen => ?_, Favoured.selected coherent⟩
  obtain ⟨other, favoured⟩ := exists_favoured config libraries workload
  cases chosen.symm.trans (favoured.selected coherent)
  exact favoured

end

/-- The profile of a configuration that a Workload asks for in its spec. -/
def requestedProfile (config : OrchestratorConfig) (workload : Workload) : Option ProfileSpec :=
  workload.spec.profile.bind fun name =>
    config.spec.profiles.find? fun profile => profile.name = name

theorem requestedProfile_eq {config : OrchestratorConfig} (coherent : Coherent config)
    {workload : Workload} {profile : ProfileSpec} (listed : profile ∈ config.spec.profiles)
    (named : workload.spec.profile = some profile.name) :
    requestedProfile config workload = some profile := by
  unfold requestedProfile
  rw [named]
  exact find?_profile coherent listed

/-- A Workload without a hint that asks for a profile in its spec gets it exactly if the
profile is favoured anyway: by its name and the ports, by the selectors or by default. -/
theorem selectBackend_honours_iff (libraries : Libraries) {v : Validator}
    {config : OrchestratorConfig} (accepted : validate v config = .ok ())
    (order : IterOrder) {workload : Workload} {profile : ProfileSpec}
    (unhinted : workload.metadata.annotations.get? "score.dev/profile" = none)
    (asked : requestedProfile config workload = some profile) :
    Honoured libraries order workload profile (selectBackend libraries order config workload) ↔
      Favoured libraries config workload profile.name := by
  have coherent := coherent_of_validate accepted
  obtain ⟨_, _, found⟩ := Option.bind_eq_some_iff.mp asked
  have listed := List.mem_of_find?_eq_some found
  obtain ⟨name, known, chosen⟩ := selectProfileUnhinted_ok libraries coherent workload
  have named : selectProfile libraries config workload = .ok name :=
    (selectProfile_unhinted libraries config unhinted).trans chosen
  rw [honoured_iff coherent named known listed order,
    ← selectProfileUnhinted_eq_ok coherent, chosen, Except.ok.injEq]

/-! ### A web service that asks for the batch profile -/

/-- A profile for web services and one for batch jobs, which is the default. -/
def mixedConfig : OrchestratorConfig where
  apiVersion := "score.dev/v1b1"
  kind := "OrchestratorConfig"
  metadata := { name := "config" }
  spec :=
    { profiles :=
        [{ name := "web-service", backends := [webBackend "web" "1"] },
          { name := "batch-job", backends := [webBackend "batch" "1"] }]
      defaults := { profile := "batch-job" } }

/-- A Workload with a port that asks for a profile. -/
def askingWorkload (profile : String) : Workload :=
  { webWorkload with spec := { webWorkload.spec with profile := some profile } }

theorem selectBackend_honours_web :
    ∃ profile, requestedProfile mixedConfig (askingWorkload "web-service") = some profile ∧
      Honoured plainLibraries .entryOrder (askingWorkload "web-service") profile
        (selectBackend plainLibraries .entryOrder mixedConfig (askingWorkload "web-service")) := by
  have accepted : validate plainValidator mixedConfig = .ok () := by decide +kernel
  have asked : requestedProfile mixedConfig (askingWorkload "web-service") =
      some { name := "web-service", backends := [webBackend "web" "1"] } :=
    requestedProfile_eq (coherent_of_validate accepted) (.head _) rfl
  have chosen : selectProfileUnhinted plainLibraries mixedConfig
      (askingWorkload "web-service") = .ok "web-service" := by
    decide +kernel
  have favoured := (selectProfileUnhinted_eq_ok (coherent_of_validate accepted)).mp chosen
  exact ⟨_, asked,
    (selectBackend_honours_iff plainLibraries accepted .entryOrder rfl asked).mpr favoured⟩

/-- The ports of a Workload overrule the profile in its spec: it asks for the batch
profile, whose backend passes the filters, and gets the backend of the other one. -/
theorem selectBackend_ignores_profile :
    validate plainValidator mixedConfig = .ok () ∧
    (askingWorkload "batch-job").metadata.annotations.get? "score.dev/profile" = none ∧
    ∃ profile, requestedProfile mixedConfig (askingWorkload "batch-job") = some profile ∧
      (∃ backend ∈ profile.backends, passesFilters plainLibraries .entryOrder
        (askingWorkload "batch-job") backend = true) ∧
      selectBackend plainLibraries .entryOrder mixedConfig (askingWorkload "batch-job") =
        .ok (.ofSpec (webBackend "web" "1")) ∧
      ¬ Honoured plainLibraries .entryOrder (askingWorkload "batch-job") profile
        (selectBackend plainLibraries .entryOrder mixedConfig (askingWorkload "batch-job")) := by
  have accepted : validate plainValidator mixedConfig = .ok () := by decide +kernel
  have asked : requestedProfile mixedConfig (askingWorkload "batch-job") =
      some { name := "batch-job", backends := [webBackend "batch" "1"] } :=
    requestedProfile_eq (coherent_of_validate accepted) (.tail _ (.head _)) rfl
  have selected : selectBackend plainLibraries .entryOrder mixedConfig
      (askingWorkload "batch-job") = .ok (.ofSpec (webBackend "web" "1")) := by
    decide +kernel
  refine ⟨accepted, rfl, _, asked, ⟨webBackend "batch" "1", .head _, rfl⟩, selected, ?_⟩
  rw [selected]
  generalize reported : SelectedBackend.ofSpec (webBackend "web" "1") = result
  intro honoured
  cases honoured with
  | selected backend listed =>
    rw [List.mem_singleton.mp listed] at reported
    have ids : "web" = "batch" := congrArg (fun selected => selected.backendID) reported
    exact absurd ids (by decide)

end ScoreOrchestrator.Selection
