/-
Module: Proofs.ResolvedEnv
Purpose: The environment of a container on its way from the pipeline, which resolves
  and encodes it, to the runtime, which decodes it into the Deployment.
-/
import ScoreOrchestrator.Api.ServerLaws
import ScoreOrchestrator.Proofs.BuiltDeployment

namespace ScoreOrchestrator

open Foundation Program

/-!
The two programs share nothing but a nested JSON object, addressed by the texts
`containers` and `env` and by container and variable names.  The pipeline leaves out
`env` for a container without variables; the runtime reads a missing object as an
empty one.
-/

variable {workload : Workload} {containerName name : String} {variables_ : GoMap String}
  {fields : List (String × Json)}

namespace Reconcile

/-! ### What the pipeline writes -/

/-- A resolution that succeeds has collected the outputs, resolved the document and
encoded it. -/
theorem resolveAllPlaceholders_ok {State : Type} {service : Server State} {order : IterOrder}
    {codec : JsonCodec} {claims : List ResourceClaim} {state final : State}
    {events : List (EventOn State)} {resolvedValues : RawExtension}
    (run : (resolveAllPlaceholders order codec workload claims).Runs service
      state events (.returned (.ok resolvedValues)) final) :
    ∃ outputs document,
      (buildResolvedOutputsMap claims .empty).Runs service state events
        (.returned outputs) final ∧
      resolvedDocument order workload outputs = .ok document ∧
      codec.marshal document = .ok resolvedValues.raw := by
  obtain ⟨outputs, early, late, middle, joined, head, tail⟩ := run.exists_of_bind
  cases resolved : resolvedDocument order workload outputs with
  | error fault =>
    rw [resolved] at tail
    cases tail
  | ok document =>
    rw [resolved] at tail
    dsimp only at tail
    split at tail
    · cases tail
    next raw encoded =>
      cases tail
      rw [joined, List.append_nil]
      exact ⟨outputs, document, head, resolved, encoded⟩

/-- The variables of a container. -/
def variablesOf (spec : ContainerSpec) : GoMap String := spec.variables_.getD .empty

/-- The map from the names of a container's variables to their resolved values. -/
structure IsResolvedEnv (outputs : AvailableOutputs) (spec : ContainerSpec)
    (env : GoMap String) : Prop where
  resolved : ∀ name value, (variablesOf spec).get? name = some value →
    ∃ text, resolveValue value outputs = .ok text ∧ env.get? name = some text
  named : ∀ name, (variablesOf spec).get? name = none → env.get? name = none

section

variable {order : IterOrder} {outputs : AvailableOutputs}

theorem resolveEnv_names {env : List (String × Json)}
    (resolved : resolveEnv order outputs containerName variables_ = .ok env) :
    (env.map Prod.fst).Nodup := by
  have names : env.map Prod.fst = (order.range variables_).map Prod.fst := by
    refine map_eq_of_forall₂ (fun entry result visited => ?_)
      (forall₂_of_mapM_ok resolved)
    split at visited
    · cases visited
      rfl
    · cases visited
  rw [names]
  exact order.nodup_range variables_

/-- The entries that a container's environment is encoded from. -/
theorem mem_resolveEnv {env : List (String × Json)}
    (resolved : resolveEnv order outputs containerName variables_ = .ok env) {encoded : Json} :
    (name, encoded) ∈ env ↔ ∃ value text, variables_.get? name = some value ∧
      resolveValue value outputs = .ok text ∧ encoded = .str text := by
  constructor
  · intro member
    obtain ⟨⟨key, value⟩, listed, visited⟩ := exists_of_mem_mapM resolved member
    have held := GoMap.get?_eq_some.mpr (IterOrder.mem_range.mp listed)
    split at visited
    next text substituted =>
      cases visited
      exact ⟨value, text, held, substituted, rfl⟩
    · cases visited
  · rintro ⟨value, text, held, substituted, rfl⟩
    have listed : (name, value) ∈ order.range variables_ :=
      IterOrder.mem_range.mpr (GoMap.get?_eq_some.mp held)
    obtain ⟨result, member, visited⟩ := exists_mem_mapM resolved listed
    simp only [substituted] at visited
    cases visited
    exact member

/-- The two shapes of a container's entry. -/
theorem resolveContainer_ok {entry : String × ContainerSpec} {result : String × Json}
    (resolved : resolveContainer order outputs entry = .ok result) :
    result.1 = entry.1 ∧
      (entry.2.variables_ = none ∧ result.2 = .obj [] ∨
        ∃ variables_ env, entry.2.variables_ = some variables_ ∧
          resolveEnv order outputs entry.1 variables_ = .ok env ∧
          result.2 = .obj [("env", objectOf env)]) := by
  unfold resolveContainer at resolved
  split at resolved
  next unset =>
    cases resolved
    exact ⟨rfl, .inl ⟨unset, rfl⟩⟩
  next variables_ set =>
    cases visited : resolveEnv order outputs entry.1 variables_ with
    | error fault =>
      rw [visited] at resolved
      cases resolved
    | ok env =>
      rw [visited] at resolved
      cases resolved
      exact ⟨rfl, .inr ⟨variables_, env, set, visited, rfl⟩⟩

/-- A document that is resolved has one entry for each container. -/
theorem resolvedDocument_ok {document : Json}
    (resolved : resolvedDocument order workload outputs = .ok document) :
    ∃ containers, document = .obj [("containers", objectOf containers)] ∧
      (containers.map Prod.fst).Nodup ∧
      ∀ name spec, workload.spec.containers.get? name = some spec →
        ∃ encoded, (name, encoded) ∈ containers ∧
          resolveContainer order outputs (name, spec) = .ok (name, encoded) := by
  unfold resolvedDocument at resolved
  cases visited : (order.range workload.spec.containers).mapM
      (resolveContainer order outputs) with
  | error fault =>
    rw [visited] at resolved
    cases resolved
  | ok containers =>
    rw [visited] at resolved
    cases resolved
    refine ⟨containers, rfl, ?_, fun name spec found => ?_⟩
    · have names : containers.map Prod.fst = (order.range workload.spec.containers).map Prod.fst :=
        map_eq_of_forall₂ (fun _ _ entry => (resolveContainer_ok entry).1)
          (forall₂_of_mapM_ok visited)
      rw [names]
      exact order.nodup_range _
    · have listed : (name, spec) ∈ order.range workload.spec.containers :=
        IterOrder.mem_range.mpr (GoMap.get?_eq_some.mp found)
      obtain ⟨⟨key, encoded⟩, member, entry⟩ := exists_mem_mapM visited listed
      have same : key = name := (resolveContainer_ok entry).1
      subst same
      exact ⟨encoded, member, entry⟩

end

/-- An encoded Go map has the fields that it was made from, sorted by their keys. -/
theorem exists_sorted_objectOf (distinct : (fields.map Prod.fst).Nodup) :
    ∃ entries : GoMap Json, objectOf fields = .obj entries.rows ∧ entries.rows.Perm fields := by
  have permuted := List.perm_insertionSort
    (fun first second : String × Json => first.1 ≤ second.1) fields
  exact ⟨⟨_, ((permuted.map Prod.fst).nodup_iff).mpr distinct⟩, rfl, permuted⟩

end Reconcile

namespace Runtime

open Reconcile (AvailableOutputs objectOf resolveContainer resolveAllPlaceholders
  buildResolvedOutputsMap IsResolvedEnv)

/-! ### What the runtime reads -/

/-- An encoded Go map is read back by its keys. -/
theorem asMap_objectOf (distinct : (fields.map Prod.fst).Nodup) :
    ∃ entries, asMap (objectOf fields) = some entries ∧
      ∀ key value, entries.get? key = some value ↔ (key, value) ∈ fields := by
  obtain ⟨entries, same, permuted⟩ := Reconcile.exists_sorted_objectOf distinct
  rw [same]
  refine ⟨.ofList entries.rows, rfl, fun key value => ?_⟩
  rw [GoMap.get?_ofList_eq_some entries.nodup, permuted.mem_iff]

section

variable {order : IterOrder} {outputs : AvailableOutputs} {spec : ContainerSpec}

/-- Without variables the missing `env` reads as an empty one. -/
theorem isResolvedEnv_of_unset (unset : spec.variables_ = none) :
    IsResolvedEnv outputs spec .empty := by
  have none : ∀ key, (Reconcile.variablesOf spec).get? key = none := by
    intro key
    rw [Reconcile.variablesOf, unset]
    rfl
  refine ⟨?_, fun _ _ => rfl⟩
  intro key value found
  rw [none] at found
  cases found

/-- The encoded variables are read back as they were resolved. -/
theorem isResolvedEnv_of_set (settings : RuntimeSettings) {envMap : GoMap Json}
    (set : spec.variables_ = some variables_)
    (visited : Reconcile.resolveEnv order outputs containerName variables_ = .ok fields)
    (lookup : ∀ key value, envMap.get? key = some value ↔ (key, value) ∈ fields) :
    IsResolvedEnv outputs spec
      (.ofList (envMap.rows.map fun entry => (entry.1, envText settings entry.2))) := by
  have variablesSet : Reconcile.variablesOf spec = variables_ := by
    rw [Reconcile.variablesOf, set]
    rfl
  constructor
  · intro key value held
    rw [variablesSet] at held
    have listed : (key, value) ∈ order.range variables_ :=
      IterOrder.mem_range.mpr (GoMap.get?_eq_some.mp held)
    obtain ⟨⟨other, entry⟩, member, substituted⟩ := exists_mem_mapM visited listed
    split at substituted
    next text resolvesTo =>
      cases substituted
      refine ⟨text, resolvesTo, ?_⟩
      rw [GoMap.get?_ofList_map, (lookup _ _).mpr member]
      rfl
    · cases substituted
  · intro key absent
    rw [variablesSet] at absent
    rw [GoMap.get?_ofList_map, Option.map_eq_none_iff, Option.eq_none_iff_forall_ne_some]
    intro entry present
    obtain ⟨value, _, held, _⟩ := (Reconcile.mem_resolveEnv visited).mp ((lookup _ _).mp present)
    rw [absent] at held
    cases held

/-- The entry of a container is read back as its resolved environment. -/
theorem containerEnv_of_resolveContainer (settings : RuntimeSettings) {encoded : Json}
    (resolved : resolveContainer order outputs (name, spec) = .ok (name, encoded)) :
    ∃ entry env, asMap encoded = some entry ∧
      containerEnv settings name entry = .ok env ∧
      IsResolvedEnv outputs spec env := by
  obtain ⟨_, ⟨unset, shape⟩ | ⟨variables_, fields, set, visited, shape⟩⟩ :=
    Reconcile.resolveContainer_ok resolved
  · dsimp only at unset shape
    subst shape
    exact ⟨.ofList [], .empty, rfl, rfl, isResolvedEnv_of_unset unset⟩
  · dsimp only at set shape
    subst shape
    obtain ⟨envMap, read, lookup⟩ := asMap_objectOf (Reconcile.resolveEnv_names visited)
    have found : (GoMap.ofList [("env", objectOf fields)]).get? "env" = some (objectOf fields) := by
      rw [GoMap.get?_ofList]
      rfl
    refine ⟨.ofList [("env", objectOf fields)], _, rfl, ?_,
      isResolvedEnv_of_set settings set visited lookup⟩
    simp only [containerEnv, found, read]

end

/-- What the runtime finds for a container in a resolved document. -/
theorem extractResolvedEnv_of_resolvedDocument (settings : RuntimeSettings) {order : IterOrder}
    {outputs : AvailableOutputs} {document : Json}
    (resolved : Reconcile.resolvedDocument order workload outputs = .ok document) :
    ∃ values, asMap document = some values ∧
      ∀ name spec, workload.spec.containers.get? name = some spec →
        ∃ env, extractResolvedEnv settings values name = .ok env ∧
          IsResolvedEnv outputs spec env := by
  obtain ⟨containers, rfl, distinct, entries⟩ := Reconcile.resolvedDocument_ok resolved
  obtain ⟨containersMap, read, lookup⟩ := asMap_objectOf distinct
  have found : (GoMap.ofList [("containers", objectOf containers)]).get? "containers" =
      some (objectOf containers) := by
    rw [GoMap.get?_ofList]
    rfl
  refine ⟨.ofList [("containers", objectOf containers)], rfl, fun name spec held => ?_⟩
  obtain ⟨encoded, member, entry⟩ := entries name spec held
  obtain ⟨containerMap, env, readContainer, extracted, isResolved⟩ :=
    containerEnv_of_resolveContainer settings entry
  refine ⟨env, ?_, isResolved⟩
  simp only [extractResolvedEnv, found, read, (lookup name encoded).mpr member,
    readContainer, extracted]

/-! ### What ends up in the Deployment -/

/-- The environment of a container lists each entry of a map exactly once. -/
structure ListsEnv (env : GoMap String) (variables_ : List EnvVar) : Prop where
  once : (variables_.map EnvVar.name).Nodup
  entries : ∀ name value,
    ({ name, value } : EnvVar) ∈ variables_ ↔ env.get? name = some value

theorem listsEnv_envVars (order : IterOrder) (env : GoMap String) :
    ListsEnv env (envVars order env) where
  once := by
    have names : (envVars order env).map EnvVar.name = (order.range env).map Prod.fst := by
      simp [envVars, Function.comp_def]
    rw [names]
    exact order.nodup_range env
  entries name value := by
    rw [GoMap.get?_eq_some]
    constructor
    · intro member
      obtain ⟨⟨key, held⟩, listed, same⟩ := List.mem_map.mp member
      cases same
      exact IterOrder.mem_range.mp listed
    · intro member
      exact List.mem_map.mpr ⟨(name, value), IterOrder.mem_range.mpr member, rfl⟩

theorem buildEnv_of_resolvedValues {settings : RuntimeSettings} {plan : WorkloadPlan}
    {resolvedValues : RawExtension} {values : GoMap Json} {env : GoMap String}
    (carried : plan.spec.resolvedValues = some resolvedValues)
    (decoded : unmarshalMap settings.codec resolvedValues.raw = .ok values)
    (extracted : extractResolvedEnv settings values name = .ok env) (spec : ContainerSpec) :
    buildEnv settings plan name spec = .ok (envVars settings.order env) := by
  simp only [buildEnv, carried, decoded, extracted]

/-- The environment survives the plan: for every container of the Workload the runtime
reads the resolved variables back from what the pipeline encoded, and a Deployment that
it builds from them has each variable once, with its resolved value. -/
theorem resolvedEnv_survives (settings : RuntimeSettings) {order : IterOrder} {workload : Workload}
    {claims : List ResourceClaim} {store final : Store} {events : List ApiEvent}
    {resolvedValues : RawExtension}
    (run : (resolveAllPlaceholders order settings.codec workload claims).Runs apiServer store events
      (.returned (.ok resolvedValues)) final) {plan : WorkloadPlan}
    (carried : plan.spec.resolvedValues = some resolvedValues) :
    ∃ outputs values,
      (buildResolvedOutputsMap claims .empty).Runs apiServer store events
        (.returned outputs) final ∧
      unmarshalMap settings.codec resolvedValues.raw = .ok values ∧
      ∀ name spec, workload.spec.containers.get? name = some spec →
        ∃ env, extractResolvedEnv settings values name = .ok env ∧
          IsResolvedEnv outputs spec env ∧
          ∀ deployment, buildDeployment settings plan workload = .ok deployment →
            ∃ container ∈ deployment.spec.containers, container.name = name ∧
              ListsEnv env container.env ∧
              ∀ other ∈ deployment.spec.containers, other.name = name → other = container := by
  obtain ⟨outputs, document, collected, resolved, encoded⟩ :=
    Reconcile.resolveAllPlaceholders_ok run
  obtain ⟨values, isMap, extracts⟩ := extractResolvedEnv_of_resolvedDocument settings resolved
  have decoded : unmarshalMap settings.codec resolvedValues.raw = .ok values := by
    unfold unmarshalMap
    rw [settings.codec.unmarshal_marshal encoded]
    cases document with
    | obj fields => simp only [isMap]
    | null | bool | num | str | arr => cases isMap
  refine ⟨outputs, values, collected, decoded, fun name spec found => ?_⟩
  obtain ⟨env, extracted, isResolved⟩ := extracts name spec found
  refine ⟨env, extracted, isResolved, fun deployment built => ?_⟩
  obtain ⟨container, member, named, builtEnv, unique⟩ :=
    (buildDeployment_composedOf built).exists_unique found
  rw [buildEnv_of_resolvedValues carried decoded extracted] at builtEnv
  have lists : ListsEnv env container.env := by
    rw [← Except.ok.inj builtEnv]
    exact listsEnv_envVars _ _
  exact ⟨container, member, named, lists, unique⟩

/-- A Workload with a container that asks for a database and one without variables. -/
def linkedWorkload : Workload where
  metadata := { name := "web", ns := "default", uid := "u1", generation := 1 }
  spec :=
    { containers := .ofList
        [("main",
          { image := "nginx"
            variables_ := some (.ofList
              [("DB", "$\x7bresources.db.uri\x7d"), ("MODE", "fast")]) }),
          ("side", { image := "busybox" })] }
  status := default

/-- The claim of the database, with its address. -/
def linkedClaim : ResourceClaim where
  metadata := { name := "web-db", ns := "default" }
  spec := { (default : ResourceClaimSpec) with key := "db", type := "postgres" }
  status :=
    { (default : ResourceClaimStatus) with
      outputsAvailable := true
      outputs := some { uri := some "pg://db" } }

/-- The resolution of that Workload. -/
@[irreducible] def linkedRun : List ApiEvent × Outcome (Except GoError RawExtension) × Store :=
  (resolveAllPlaceholders .entryOrder quietRuntime.codec linkedWorkload
    [linkedClaim]).execute serve [] Store.empty

theorem runs_linkedRun :
    (resolveAllPlaceholders .entryOrder quietRuntime.codec linkedWorkload
        [linkedClaim]).Runs apiServer Store.empty linkedRun.1 linkedRun.2.1 linkedRun.2.2 := by
  unfold linkedRun
  exact runs_execute serve _ [] Store.empty

/-- The values it returned, and a plan that carries them. -/
def linkedPlan : WorkloadPlan where
  metadata := { name := "web", ns := "default", uid := "u2", generation := 1 }
  spec :=
    { (default : WorkloadPlanSpec) with
      workloadRef := ⟨"default", "web"⟩
      runtimeClass := kubernetesRuntimeClass
      resolvedValues := (linkedRun.2.1.getD (.error default)).toOption }
  status := default

theorem linkedRun_returned : ∃ resolvedValues,
    linkedRun.2.1 = .returned (.ok resolvedValues) ∧
      linkedPlan.spec.resolvedValues = some resolvedValues := by
  have succeeds : (linkedRun.2.1.passes fun resolved => resolved.toOption.isSome) =
      true := by
    decide +kernel
  obtain ⟨resolved, returned, isOk⟩ := Outcome.exists_of_passes succeeds
  cases resolved with
  | error fault => cases isOk
  | ok resolvedValues =>
    refine ⟨resolvedValues, returned, ?_⟩
    unfold linkedPlan
    rw [returned]
    rfl

/-- The containers that the runtime builds from that plan. -/
@[irreducible] def linkedContainers : List Container :=
  ((buildDeployment quietRuntime linkedPlan linkedWorkload).toOption.map fun deployment =>
    deployment.spec.containers).getD []

theorem resolvedEnv_survives_linked :
    ∃ env : GoMap String, env.get? "DB" = some "pg://db" ∧
      ∃ container ∈ linkedContainers, container.name = "main" ∧
        ListsEnv env container.env := by
  obtain ⟨resolvedValues, returned, carried⟩ := linkedRun_returned
  have run := runs_linkedRun
  rw [returned] at run
  obtain ⟨_, values, _, _, extracts⟩ := resolvedEnv_survives quietRuntime run carried
  have present : (linkedWorkload.spec.containers.get? "main").isSome = true := by
    decide +kernel
  obtain ⟨spec, found⟩ := Option.isSome_iff_exists.mp present
  obtain ⟨env, _, _, survives⟩ := extracts "main" spec found
  have builds : (buildDeployment quietRuntime linkedPlan linkedWorkload).toOption.isSome =
      true := by
    decide +kernel
  cases built : buildDeployment quietRuntime linkedPlan linkedWorkload with
  | error fault =>
    rw [built] at builds
    cases builds
  | ok deployment =>
    have same : linkedContainers = deployment.spec.containers := by
      unfold linkedContainers
      rw [built]
      rfl
    obtain ⟨container, member, named, lists, _⟩ := survives deployment built
    rw [← same] at member
    have listed : ∀ other ∈ linkedContainers, other.name = "main" →
        ({ name := "DB", value := "pg://db" } : EnvVar) ∈ other.env := by
      decide +kernel
    have entry := (lists.entries "DB" "pg://db").mp (listed container member named)
    exact ⟨env, entry, container, member, named, lists⟩

end Runtime

end ScoreOrchestrator
