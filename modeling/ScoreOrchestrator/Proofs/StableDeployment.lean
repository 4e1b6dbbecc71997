/-
Module: Proofs.StableDeployment
Purpose: When the Deployment that the runtime builds does not depend on the order in
  which Go iterates over maps, and a second reconcile therefore patches nothing.
-/
import ScoreOrchestrator.Proofs.BuiltDeployment
import ScoreOrchestrator.Proofs.CreateOrPatch

namespace ScoreOrchestrator.Runtime

open Foundation Program

variable {entry : String × ContainerSpec} {quantities : GoMap Quantity} {deployment : Deployment}

/-- The same run with another iteration order. -/
def RuntimeSettings.inOrder (settings : RuntimeSettings) (order : IterOrder) : RuntimeSettings :=
  { settings with order }

/-! ### Semantic equality

`equality.Semantic.DeepEqual` compares maps by their entries and lists in order.  It
is equality of the contents below. -/

/-- What a container holds, with its maps read as functions. -/
structure ContainerContents where
  name : String
  image : String
  command : List String
  args : List String
  env : List EnvVar
  requests : String → Option Quantity
  limits : String → Option Quantity

/-- What the spec of a Deployment holds. -/
structure DeploymentContents where
  replicas : Nat
  selector : String → Option String
  templateLabels : String → Option String
  containers : List ContainerContents

def containerContents (container : Container) : ContainerContents where
  name := container.name
  image := container.image
  command := container.command
  args := container.args
  env := container.env
  requests := container.requests.get?
  limits := container.limits.get?

def deploymentContents (spec : DeploymentSpec) : DeploymentContents where
  replicas := spec.replicas
  selector := spec.selector.get?
  templateLabels := spec.templateLabels.get?
  containers := spec.containers.map containerContents

theorem containerEqual_iff {first second : Container} :
    containerEqual first second = true ↔ containerContents first = containerContents second := by
  simp only [containerEqual, containerContents, ContainerContents.mk.injEq,
    Bool.and_eq_true, decide_eq_true_eq, GoMap.sameEntries_iff, funext_iff, and_assoc]

theorem deploymentSpecEqual_iff {first second : DeploymentSpec} :
    deploymentSpecEqual first second = true ↔
      deploymentContents first = deploymentContents second := by
  have lists : first.containers.map containerContents = second.containers.map containerContents ↔
      first.containers.length = second.containers.length ∧
        ∀ pair ∈ first.containers.zip second.containers,
          containerEqual pair.1 pair.2 = true := by
    rw [← List.forall₂_eq_eq_eq, List.forall₂_map_left_iff, List.forall₂_map_right_iff,
      List.forall₂_iff_zip]
    simp only [containerEqual_iff, Prod.forall]
  simp only [deploymentSpecEqual, deploymentContents, DeploymentContents.mk.injEq,
    Bool.and_eq_true, decide_eq_true_eq, GoMap.sameEntries_iff, funext_iff, and_assoc,
    List.all_eq_true, lists]

/-- Equal Deployments: the same metadata, and specs that hold the same. -/
def SameDeployment (first second : Deployment) : Prop :=
  first.metadata = second.metadata ∧ deploymentSpecEqual first.spec second.spec = true

/-! ### What is iterated over -/

/-- The map behind the environment of a container. -/
def environment (settings : RuntimeSettings) (plan : WorkloadPlan) (containerName : String)
    (containerSpec : ContainerSpec) : Except GoError (GoMap String) :=
  match plan.spec.resolvedValues with
  | some resolved =>
    match unmarshalMap settings.codec resolved.raw with
    | .error fault => .error (fault.wrap "failed to unmarshal resolved values: ")
    | .ok resolvedValues =>
      match extractResolvedEnv settings resolvedValues containerName with
      | .error fault =>
        .error (fault.wrap
          "failed to extract resolved environment variables: ")
      | .ok resolvedEnv => .ok resolvedEnv
  | none => .ok (containerSpec.variables_.getD .empty)

/-- The map itself does not depend on the order. -/
theorem environment_inOrder (settings : RuntimeSettings) (order : IterOrder) (plan : WorkloadPlan)
    (containerName : String) (containerSpec : ContainerSpec) :
    environment (settings.inOrder order) plan containerName containerSpec =
      environment settings plan containerName containerSpec := rfl

/-- At most one container, and in it at most one environment variable. -/
def SingleEntries (settings : RuntimeSettings) (plan : WorkloadPlan) (workload : Workload) : Prop :=
  workload.spec.containers.rows.length ≤ 1 ∧
    ∀ entry ∈ workload.spec.containers.rows, ∀ values,
      environment settings plan entry.1 entry.2 = .ok values → values.rows.length ≤ 1

theorem range_of_single {V : Type} {entries : GoMap V} (single : entries.rows.length ≤ 1)
    (order : IterOrder) : order.range entries = entries.rows := by
  have permuted : (order.range entries).Perm entries.rows := order.perm entries.rows
  match rows : entries.rows with
  | [] =>
    rw [rows] at permuted
    exact permuted.eq_nil
  | [entry] =>
    rw [rows] at permuted
    exact permuted.eq_singleton
  | _ :: _ :: _ =>
    rw [rows] at single
    simp at single

/-- A map that is iterated over in the same way whatever key comes first has at most
one entry. -/
theorem single_of_heads {V : Type} {entries : GoMap V}
    (same : ∀ first second, (((IterOrder.beginWith first).range entries).map Prod.fst).head? =
      (((IterOrder.beginWith second).range entries).map Prod.fst).head?) :
    entries.rows.length ≤ 1 := by
  match rows : entries.rows with
  | [] => simp
  | [_] => simp
  | one :: other :: rest =>
    have distinct := entries.nodup
    rw [rows] at distinct
    obtain ⟨_, startsOne⟩ := IterOrder.beginWith_range
      (show (one.1, one.2) ∈ entries.rows by rw [rows]; exact .head _)
    obtain ⟨_, startsOther⟩ := IterOrder.beginWith_range
      (show (other.1, other.2) ∈ entries.rows by rw [rows]; exact .tail _ (.head _))
    have heads := same one.1 other.1
    rw [startsOne, startsOther] at heads
    have names : one.1 = other.1 := by simpa using heads
    simp [names] at distinct

theorem buildEnv_eq (settings : RuntimeSettings) (plan : WorkloadPlan) (containerName : String)
    (containerSpec : ContainerSpec) :
    buildEnv settings plan containerName containerSpec =
      (environment settings plan containerName containerSpec).map (envVars settings.order) := by
  unfold buildEnv environment
  cases plan.spec.resolvedValues with
  | some resolved =>
    dsimp only
    cases unmarshalMap settings.codec resolved.raw with
    | error fault => rfl
    | ok resolvedValues =>
      dsimp only
      cases extractResolvedEnv settings resolvedValues containerName <;> rfl
  | none =>
    cases containerSpec.variables_ with
    | some entries => rfl
    | none =>
      have nothing : settings.order.range (.empty : GoMap String) = [] :=
        range_of_single (by decide) settings.order
      rw [Option.getD_none, Except.map, envVars, nothing]
      rfl

/-- What the environment of a built container was made from. -/
theorem env_of_buildContainer {settings : RuntimeSettings} {plan : WorkloadPlan}
    {container : Container} (built : buildContainer settings plan entry = .ok container) :
    ∃ values, environment settings plan entry.1 entry.2 = .ok values ∧
      container.env = envVars settings.order values := by
  have env := (buildContainer_ok built).2.2
  rw [buildEnv_eq] at env
  cases resolved : environment settings plan entry.1 entry.2 with
  | error fault =>
    rw [resolved] at env
    cases env
  | ok values =>
    rw [resolved] at env
    exact ⟨values, rfl, (Except.ok.inj env).symm⟩

/-! ### Amounts -/

section

variable {settings : RuntimeSettings} {what : String} {amounts : GoMap String}

/-- Parse one amount under its name. -/
def parseEntry (settings : RuntimeSettings) (what : String) (entry : String × String) :
    Except GoError (String × Quantity) :=
  match settings.parseQuantity entry.2 with
  | .ok quantity => .ok (entry.1, quantity)
  | .error fault =>
    .error (fault.wrap ("invalid " ++ what ++ " " ++ entry.1 ++ " value " ++
      entry.2 ++ ": "))

theorem parseEntry_eq_ok {entry : String × String} {parsed : String × Quantity} :
    parseEntry settings what entry = .ok parsed ↔
      parsed.1 = entry.1 ∧ settings.parseQuantity entry.2 = .ok parsed.2 := by
  unfold parseEntry
  cases settings.parseQuantity entry.2 with
  | error fault => simp
  | ok quantity => rw [Except.ok.injEq, Except.ok.injEq, Prod.ext_iff, eq_comm]

theorem parseQuantities_eq_ok :
    parseQuantities settings what amounts = .ok quantities ↔
      ∃ parsed, (settings.order.range amounts).mapM (parseEntry settings what) =
        .ok parsed ∧ quantities = .ofList parsed := by
  have unfolded : parseQuantities settings what amounts =
      (settings.order.range amounts).mapM (parseEntry settings what) >>= fun parsed =>
        .ok (.ofList parsed) := rfl
  rw [unfolded]
  cases (settings.order.range amounts).mapM (parseEntry settings what) with
  | error fault => simp [bind, Except.bind]
  | ok parsed =>
    simp only [bind, Except.bind, Except.ok.injEq, exists_eq_left']
    exact eq_comm

theorem get?_of_parseQuantities (parsed : parseQuantities settings what amounts = .ok quantities)
    (key : String) :
    quantities.get? key =
      (amounts.get? key).bind fun text => (settings.parseQuantity text).toOption := by
  obtain ⟨entries, visited, rfl⟩ := parseQuantities_eq_ok.mp parsed
  have names : entries.map Prod.fst = (settings.order.range amounts).map Prod.fst :=
    map_eq_of_forall₂ (fun _ _ found => (parseEntry_eq_ok.mp found).1)
      (forall₂_of_mapM_ok visited)
  have distinct : (entries.map Prod.fst).Nodup := by
    rw [names]
    exact settings.order.nodup_range amounts
  apply Option.ext
  intro quantity
  rw [GoMap.get?_ofList_eq_some distinct, Option.bind_eq_some_iff]
  constructor
  · intro member
    obtain ⟨entry, listed, found⟩ := exists_of_mem_mapM visited member
    obtain ⟨named, amount⟩ := parseEntry_eq_ok.mp found
    have stored : amounts.get? key = some entry.2 := by
      rw [show key = entry.1 from named]
      exact GoMap.get?_eq_some.mpr (IterOrder.mem_range.mp listed)
    exact ⟨entry.2, stored, by rw [amount]; rfl⟩
  · rintro ⟨text, stored, amount⟩
    have listed : (key, text) ∈ settings.order.range amounts :=
      IterOrder.mem_range.mpr (GoMap.get?_eq_some.mp stored)
    obtain ⟨result, member, found⟩ := exists_mem_mapM visited listed
    obtain ⟨named, parsedAmount⟩ := parseEntry_eq_ok.mp found
    rw [parsedAmount] at amount
    have same : result = (key, quantity) := Prod.ext named (Option.some.inj amount)
    rw [← same]
    exact member

/-- Whether amounts can be parsed does not depend on the order. -/
theorem exists_parseQuantities_inOrder
    (parsed : parseQuantities settings what amounts = .ok quantities) (order : IterOrder) :
    ∃ others, parseQuantities (settings.inOrder order) what amounts = .ok others ∧
      others.get? = quantities.get? := by
  obtain ⟨entries, visited, _⟩ := parseQuantities_eq_ok.mp parsed
  have parses : ∀ entry ∈ order.range amounts,
      ∃ result, parseEntry settings what entry = .ok result := by
    intro entry listed
    obtain ⟨result, _, found⟩ :=
      exists_mem_mapM visited (IterOrder.mem_range.mpr (IterOrder.mem_range.mp listed))
    exact ⟨result, found⟩
  obtain ⟨others, visitedToo⟩ := exists_mapM_ok parses
  have parsedToo : parseQuantities (settings.inOrder order) what amounts =
      .ok (.ofList others) := parseQuantities_eq_ok.mpr ⟨others, visitedToo, rfl⟩
  refine ⟨_, parsedToo, funext fun key => ?_⟩
  rw [get?_of_parseQuantities parsedToo, get?_of_parseQuantities parsed]
  rfl

end

/-! ### Containers and Deployments -/

variable {settings : RuntimeSettings} {plan : WorkloadPlan} {workload : Workload}

/-- Only the environment of a container depends on the order. -/
theorem exists_buildContainer_inOrder {container : Container}
    (built : buildContainer settings plan entry = .ok container) (order : IterOrder) :
    ∃ other, buildContainer (settings.inOrder order) plan entry = .ok other ∧
      containerContents other = { containerContents container with env := other.env } := by
  obtain ⟨values, resolved, _⟩ := env_of_buildContainer built
  have env : buildEnv (settings.inOrder order) plan entry.1 entry.2 =
      .ok (envVars order values) := by
    rw [buildEnv_eq, environment_inOrder, resolved]
    rfl
  obtain ⟨_, requests, limits, _, requestsParsed, limitsParsed, rfl⟩ :=
    buildContainer_eq_ok.mp built
  obtain ⟨otherRequests, requestsParsedToo, sameRequests⟩ :=
    exists_parseQuantities_inOrder requestsParsed order
  obtain ⟨otherLimits, limitsParsedToo, sameLimits⟩ :=
    exists_parseQuantities_inOrder limitsParsed order
  refine ⟨_, buildContainer_eq_ok.mpr
    ⟨_, otherRequests, otherLimits, env, requestsParsedToo, limitsParsedToo, rfl⟩, ?_⟩
  simp only [containerContents, sameRequests, sameLimits]

/-- Whether a Deployment can be built does not depend on the order. -/
theorem exists_buildDeployment_inOrder
    (built : buildDeployment settings plan workload = .ok deployment) (order : IterOrder) :
    ∃ other, buildDeployment (settings.inOrder order) plan workload = .ok other := by
  have visited := (buildDeployment_ok built).1
  have builds : ∀ entry ∈ order.range workload.spec.containers,
      ∃ container, buildContainer (settings.inOrder order) plan entry = .ok container := by
    intro entry listed
    obtain ⟨container, _, found⟩ :=
      exists_mem_mapM visited (IterOrder.mem_range.mpr (IterOrder.mem_range.mp listed))
    obtain ⟨other, foundToo, _⟩ := exists_buildContainer_inOrder found order
    exact ⟨other, foundToo⟩
  obtain ⟨containers, visitedToo⟩ := exists_mapM_ok builds
  unfold buildDeployment
  rw [show (settings.inOrder order).order.range _ = order.range _ from rfl, visitedToo]
  exact ⟨_, rfl⟩

section

variable {first second : IterOrder} {one other : Deployment}
  (built : buildDeployment (settings.inOrder first) plan workload = .ok one)
  (builtToo : buildDeployment (settings.inOrder second) plan workload = .ok other)

include built builtToo

/-- Two builds differ in their containers at most. -/
theorem sameDeployment_iff :
    SameDeployment one other ↔
      one.spec.containers.map containerContents = other.spec.containers.map containerContents := by
  obtain ⟨_, metadata, spec⟩ := buildDeployment_ok built
  obtain ⟨_, metadataToo, specToo⟩ := buildDeployment_ok builtToo
  unfold SameDeployment
  rw [metadata, metadataToo, deploymentSpecEqual_iff, spec, specToo]
  simp [deploymentContents]

theorem sameDeployment_of_single (single : SingleEntries settings plan workload) :
    SameDeployment one other := by
  have visited := (buildDeployment_ok built).1
  have visitedToo := (buildDeployment_ok builtToo).1
  rw [range_of_single single.1] at visited visitedToo
  rw [sameDeployment_iff built builtToo]
  apply map_eq_map_of_mapM_ok visited visitedToo
  intro entry member container container' found foundToo
  obtain ⟨again, foundAgain, same⟩ := exists_buildContainer_inOrder found second
  have isAgain : container' = again := Except.ok.inj (foundToo.symm.trans foundAgain)
  subst isAgain
  obtain ⟨values, resolved, env⟩ := env_of_buildContainer found
  obtain ⟨values', resolved', env'⟩ := env_of_buildContainer foundToo
  have sameValues : values' = values := Except.ok.inj (resolved'.symm.trans resolved)
  subst sameValues
  have fewValues := single.2 entry member values' resolved
  have sameEnv : container'.env = container.env := by
    rw [env, env', envVars, envVars, range_of_single fewValues, range_of_single fewValues]
  rw [same, sameEnv]
  rfl

/-- Equal Deployments come from the same iteration over the containers. -/
theorem range_containers_of_same (same : SameDeployment one other) :
    (first.range workload.spec.containers).map Prod.fst =
      (second.range workload.spec.containers).map Prod.fst := by
  have contents := (sameDeployment_iff built builtToo).mp same
  have names := congrArg (List.map ContainerContents.name) contents
  rw [List.map_map, List.map_map] at names
  have composed := (buildDeployment_composedOf built).names
  have composedToo := (buildDeployment_composedOf builtToo).names
  exact composed.symm.trans (Eq.trans names composedToo)

/-- Equal Deployments come from the same iteration over each environment. -/
theorem range_environment_of_same (same : SameDeployment one other)
    (member : entry ∈ workload.spec.containers.rows) {values : GoMap String}
    (resolved : environment settings plan entry.1 entry.2 = .ok values) :
    (first.range values).map Prod.fst = (second.range values).map Prod.fst := by
  have contents := (sameDeployment_iff built builtToo).mp same
  have stored : workload.spec.containers.get? entry.1 = some entry.2 :=
    GoMap.get?_eq_some.mpr member
  obtain ⟨container, listed, named, env, _⟩ :=
    (buildDeployment_composedOf built).exists_unique stored
  obtain ⟨container', _, _, env', unique⟩ :=
    (buildDeployment_composedOf builtToo).exists_unique stored
  have inOther : containerContents container ∈ other.spec.containers.map containerContents := by
    rw [← contents]
    exact List.mem_map.mpr ⟨container, listed, rfl⟩
  obtain ⟨twin, twinListed, twinSame⟩ := List.mem_map.mp inOther
  have twinName : twin.name = entry.1 := (congrArg ContainerContents.name twinSame).trans named
  have twinEnv : container'.env = container.env := by
    rw [← unique twin twinListed twinName]
    exact congrArg ContainerContents.env twinSame
  rw [buildEnv_eq, environment_inOrder, resolved] at env env'
  have ranges : envVars first values = envVars second values := by
    rw [show envVars first values = container.env from Except.ok.inj env, ← twinEnv]
    exact (Except.ok.inj env').symm
  have names := congrArg (List.map EnvVar.name) ranges
  simpa [envVars, Function.comp_def] using names

end

/-- Where every order gives the same Deployment, nothing is there to be ordered. -/
theorem single_of_same (same : ∀ first second one other,
      buildDeployment (settings.inOrder first) plan workload = .ok one →
      buildDeployment (settings.inOrder second) plan workload = .ok other →
      SameDeployment one other) (built : buildDeployment settings plan workload = .ok deployment) :
    SingleEntries settings plan workload := by
  refine ⟨single_of_heads fun first second => ?_, fun entry member values resolved =>
    single_of_heads fun first second => ?_⟩
  all_goals
    obtain ⟨one, builtOne⟩ := exists_buildDeployment_inOrder built (IterOrder.beginWith first)
    obtain ⟨other, builtOther⟩ := exists_buildDeployment_inOrder built (IterOrder.beginWith second)
    have equal := same _ _ one other builtOne builtOther
  · rw [range_containers_of_same builtOne builtOther equal]
  · rw [range_environment_of_same builtOne builtOther equal member resolved]

/-! ### Reconciliation -/

theorem deploymentSpecEqual_merged (base desired : DeploymentSpec) :
    deploymentSpecEqual (mergeSpec .deployment base desired base) desired = true := by
  rw [deploymentSpecEqual_iff]
  simp only [deploymentContents, mergeSpec, mergeField_self, DeploymentContents.mk.injEq,
    funext_iff, get?_mergeMap_self, implies_true, and_self]

/-- After a successful reconcile the Deployment is stored and settled. -/
theorem reconcileDeployment_settles {before after : Store} {events : List ApiEvent}
    (run : (reconcileDeployment settings plan workload).Runs apiServer before events
      (.returned (.ok ())) after) :
    ∃ deployment stored, desiredDeployment settings plan workload = .ok deployment ∧
      after.find? .deployment deployment.key = some stored ∧
      Settled .deployment deploymentSpecEqual (fun _ desired => desired) deployment stored := by
  rcases reconcileDeployment_cases settings plan workload with
    ⟨fault, fails⟩ | ⟨deployment, desired, equal⟩
  · rw [fails] at run
    cases run
  · rw [equal] at run
    have fresh : deploymentSpecEqual deployment.spec deployment.spec = true :=
      deploymentSpecEqual_iff.mpr rfl
    obtain ⟨stored, found, settled⟩ := createOrPatch_settles fresh
      (fun base => deploymentSpecEqual_merged base deployment.spec) run
    exact ⟨deployment, stored, desired, found, settled⟩

theorem desiredDeployment_ok (desired : desiredDeployment settings plan workload = .ok deployment) :
    ∃ built, buildDeployment settings plan workload = .ok built ∧
      setControllerReference plan built = .ok deployment := by
  unfold desiredDeployment at desired
  cases built : buildDeployment settings plan workload with
  | error fault =>
    rw [built] at desired
    cases desired
  | ok object =>
    rw [built] at desired
    exact ⟨object, rfl, desired⟩

/-- What settles one Deployment settles an equal one. -/
theorem settled_of_same {first second : IterOrder} {one other stored : Deployment}
    (same : ∀ built builtToo,
      buildDeployment (settings.inOrder first) plan workload = .ok built →
      buildDeployment (settings.inOrder second) plan workload = .ok builtToo →
        SameDeployment built builtToo)
    (desired : desiredDeployment (settings.inOrder first) plan workload = .ok one)
    (desiredToo : desiredDeployment (settings.inOrder second) plan workload = .ok other)
    (settled : Settled .deployment deploymentSpecEqual (fun _ desired => desired) one stored) :
    other.key = one.key ∧
      Settled .deployment deploymentSpecEqual (fun _ desired => desired) other stored := by
  obtain ⟨built, wasBuilt, owned⟩ := desiredDeployment_ok desired
  obtain ⟨builtToo, wasBuiltToo, ownedToo⟩ := desiredDeployment_ok desiredToo
  obtain ⟨spec, metadata⟩ := setControllerReference_ok owned
  obtain ⟨specToo, metadataToo⟩ := setControllerReference_ok ownedToo
  obtain ⟨sameMetadata, sameSpec⟩ := same built builtToo wasBuilt wasBuiltToo
  have equalMetadata : other.metadata = one.metadata := by
    rw [metadata, metadataToo, sameMetadata]
  rw [settled_iff] at settled ⊢
  obtain ⟨upToSpec, labels, annotations⟩ := settled
  rw [deploymentSpecEqual_iff, spec] at upToSpec
  rw [deploymentSpecEqual_iff] at sameSpec
  rw [equalMetadata, specToo, deploymentSpecEqual_iff]
  exact ⟨by unfold Resource.key; rw [equalMetadata], upToSpec.trans sameSpec, labels,
    annotations⟩

/-- A second reconcile that meets the Deployment as the first one left it. -/
theorem reconcileDeployment_quiet {first second : IterOrder} {before middle later final : Store}
    {events again : List ApiEvent} {outcome : Outcome (Except GoError Unit)}
    (single : SingleEntries settings plan workload)
    (run : (reconcileDeployment (settings.inOrder first) plan workload).Runs apiServer
      before events (.returned (.ok ())) middle)
    (unchanged : ∀ key, later.find? .deployment key = middle.find? .deployment key)
    (rerun : (reconcileDeployment (settings.inOrder second) plan workload).Runs apiServer
      later again outcome final) : ∀ event ∈ again, event.request.isPatch = false := by
  obtain ⟨deployment, stored, desired, found, settled⟩ := reconcileDeployment_settles run
  rcases reconcileDeployment_cases (settings.inOrder second) plan workload with
    ⟨fault, fails⟩ | ⟨other, desiredToo, equal⟩
  · rw [fails] at rerun
    cases rerun <;> simp
  · rw [equal] at rerun
    obtain ⟨keys, settledToo⟩ := settled_of_same
      (fun _ _ built builtToo => sameDeployment_of_single built builtToo single)
      desired desiredToo settled
    rw [← keys, ← unchanged] at found
    exact createOrPatch_quiet found settledToo rerun

/-- A Deployment that can be built in one order can be built in all of them.  It is the
same one in all of them, and a second reconcile never patches it, exactly if no map has
two entries. -/
theorem deployment_stable_iff {deployment : Deployment}
    (built : buildDeployment settings plan workload = .ok deployment) :
    (∀ order, ∃ other,
      buildDeployment (settings.inOrder order) plan workload = .ok other) ∧
    ((∀ first second one other,
        buildDeployment (settings.inOrder first) plan workload = .ok one →
        buildDeployment (settings.inOrder second) plan workload = .ok other →
          SameDeployment one other) ∧
      (∀ first second before events middle later again outcome final,
        (reconcileDeployment (settings.inOrder first) plan workload).Runs apiServer
          before events (.returned (.ok ())) middle →
        (∀ key, later.find? .deployment key = middle.find? .deployment key) →
        (reconcileDeployment (settings.inOrder second) plan workload).Runs apiServer
          later again outcome final →
            ∀ event ∈ again, event.request.isPatch = false) ↔
      SingleEntries settings plan workload) := by
  refine ⟨exists_buildDeployment_inOrder built, fun stable => ?_, fun single => ⟨?_, ?_⟩⟩
  · exact single_of_same stable.1 built
  · intro first second one other builtOne builtOther
    exact sameDeployment_of_single builtOne builtOther single
  · intro first second before events middle later again outcome final run unchanged rerun
    exact reconcileDeployment_quiet single run unchanged rerun

/-! ### One container and two -/

/-- A container with one variable. -/
def plainContainer : ContainerSpec :=
  { image := "nginx", variables_ := some (.ofList [("MODE", "fast")]) }

def plainWorkload (containers : GoMap ContainerSpec) : Workload where
  metadata := { name := "web", ns := "default", uid := "u1", generation := 1 }
  spec := { containers }
  status := default

/-- A plan without resolved values. -/
def plainPlan : WorkloadPlan where
  metadata := { name := "web", ns := "default", uid := "u2", generation := 1 }
  spec :=
    { (default : WorkloadPlanSpec) with
      workloadRef := ⟨"default", "web"⟩
      runtimeClass := kubernetesRuntimeClass }
  status := default

@[irreducible] def loneWorkload : Workload := plainWorkload (.ofList [("app", plainContainer)])

@[irreducible] def pairedWorkload : Workload :=
  plainWorkload (.ofList [("app", plainContainer), ("proxy", plainContainer)])

theorem single_loneWorkload : SingleEntries quietRuntime plainPlan loneWorkload := by
  refine ⟨by decide +kernel, fun entry member values resolved => ?_⟩
  have few : ∀ entry ∈ loneWorkload.spec.containers.rows,
      ∀ values ∈ (environment quietRuntime plainPlan entry.1 entry.2).toOption,
        values.rows.length ≤ 1 := by
    decide +kernel
  exact few entry member values (by rw [resolved]; rfl)

theorem deployment_stable_lone :
    (∃ deployment,
      buildDeployment quietRuntime plainPlan loneWorkload = .ok deployment) ∧
    ∀ first second one other,
      buildDeployment (quietRuntime.inOrder first) plainPlan loneWorkload = .ok one →
      buildDeployment (quietRuntime.inOrder second) plainPlan loneWorkload = .ok other →
        SameDeployment one other := by
  obtain ⟨deployment, built⟩ := exists_of_toOption
    (show (buildDeployment quietRuntime plainPlan loneWorkload).toOption.isSome = true by
      decide +kernel)
  exact ⟨⟨deployment, built⟩,
    ((deployment_stable_iff built).2.mpr single_loneWorkload).1⟩

/-- The reconcile of the two containers that begins with one of them. -/
def pairedRun (name : String) : Client (Except GoError Unit) :=
  reconcileDeployment (quietRuntime.inOrder (.beginWith name)) plainPlan pairedWorkload

@[irreducible] def pairedStore : Store := ((pairedRun "app").execute serve [] .empty).2.2

/-- Two containers, two orders: the Deployments differ, and the second reconcile
patches what the first one created. -/
theorem deployment_depends_on_order :
    (∃ one other,
      buildDeployment (quietRuntime.inOrder (.beginWith "app")) plainPlan pairedWorkload = .ok one ∧
      buildDeployment (quietRuntime.inOrder (.beginWith "proxy")) plainPlan
        pairedWorkload = .ok other ∧
      ¬ SameDeployment one other) ∧
    ∃ events again final,
      (pairedRun "app").Runs apiServer .empty events (.returned (.ok ())) pairedStore ∧
      (pairedRun "proxy").Runs apiServer pairedStore again (.returned (.ok ())) final ∧
      ∃ event ∈ again, event.request.isPatch = true := by
  constructor
  · have differ : ∀ one ∈ (buildDeployment (quietRuntime.inOrder (.beginWith "app"))
        plainPlan pairedWorkload).toOption, ∀ other ∈ (buildDeployment
          (quietRuntime.inOrder (.beginWith "proxy")) plainPlan pairedWorkload).toOption,
        deploymentSpecEqual one.spec other.spec = false := by
      decide +kernel
    obtain ⟨one, built⟩ := exists_of_toOption
      (show (buildDeployment (quietRuntime.inOrder (.beginWith "app")) plainPlan
        pairedWorkload).toOption.isSome = true by decide +kernel)
    obtain ⟨other, builtToo⟩ := exists_of_toOption
      (show (buildDeployment (quietRuntime.inOrder (.beginWith "proxy")) plainPlan
        pairedWorkload).toOption.isSome = true by decide +kernel)
    refine ⟨one, other, built, builtToo, fun same => ?_⟩
    have unequal := differ one (by rw [built]; rfl) other (by rw [builtToo]; rfl)
    rw [same.2] at unequal
    cases unequal
  · have created : ((pairedRun "app").execute serve [] .empty).2.1 = .returned (.ok ()) := by
      decide +kernel
    have patched : ((pairedRun "proxy").execute serve [] pairedStore).2.1 = .returned (.ok ()) := by
      decide +kernel
    have patches : ((pairedRun "proxy").execute serve [] pairedStore).1.any
        (fun event => event.request.isPatch) = true := by
      decide +kernel
    have stored : pairedStore = ((pairedRun "app").execute serve [] .empty).2.2 := by
      unfold pairedStore
      rfl
    have run := runs_execute serve (pairedRun "app") [] .empty
    have rerun := runs_execute serve (pairedRun "proxy") [] pairedStore
    rw [created, ← stored] at run
    rw [patched] at rerun
    exact ⟨_, _, _, run, rerun, List.any_eq_true.mp patches⟩

end ScoreOrchestrator.Runtime
