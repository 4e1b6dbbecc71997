/-
Module: Proofs.RuntimeChildren
Purpose: Which Deployments and Services of a plan are stored after a reconcile of the
  runtime, over all histories of edits and reconciles.
-/
import ScoreOrchestrator.Proofs.StableDeployment

namespace ScoreOrchestrator.Runtime

open Foundation Program

/-! ### Children -/

/-- Is the object controlled by the plan with this uid? -/
def ownedBy {Spec Status : Type} (uid : String) (object : Resource Spec Status) : Bool :=
  object.metadata.ownerReferences.any fun owner =>
    owner.uid = uid && owner.controller = some true

/-- The stored objects of a kind that the runtime created for a plan. -/
def children (store : Store) (kind : Kind) (plan : WorkloadPlan) : List kind.Object :=
  (store.table kind).rows.filter (ownedBy plan.metadata.uid)

/-- The children are those that plan and Workload call for. -/
structure CalledFor (plan : WorkloadPlan) (workload : Workload) (store : Store) : Prop where
  deployed : plan.spec.runtimeClass = kubernetesRuntimeClass →
    ∃ deployment, children store .deployment plan = [deployment] ∧
      deployment.key = plan.spec.workloadRef
  served : plan.spec.runtimeClass = kubernetesRuntimeClass → exposedPorts workload ≠ [] →
    ∃ service, children store .service plan = [service] ∧
      service.key = plan.spec.workloadRef ∧
      service.spec.ports = (exposedPorts workload).mapIdx buildServicePort
  unserved : plan.spec.runtimeClass = kubernetesRuntimeClass → exposedPorts workload = [] →
    children store .service plan = []
  elsewhere : plan.spec.runtimeClass ≠ kubernetesRuntimeClass →
    children store .deployment plan = [] ∧ children store .service plan = []

/-- No child is left over that plan and Workload do not call for. -/
structure NothingLeft (plan : WorkloadPlan) (workload : Workload) (store : Store) : Prop where
  unserved : plan.spec.runtimeClass = kubernetesRuntimeClass → exposedPorts workload = [] →
    children store .service plan = []
  elsewhere : plan.spec.runtimeClass ≠ kubernetesRuntimeClass →
    children store .deployment plan = [] ∧ children store .service plan = []

/-! ### Histories -/

/-- What stays the same of a plan over its life. -/
structure PlanIdentity where
  key : NamespacedName
  uid : String
  workloadRef : NamespacedName

/-- The kinds of the runtime's children. -/
def IsChildKind (kind : Kind) : Prop := kind = .deployment ∨ kind = .service

instance (kind : Kind) : Decidable (IsChildKind kind) := inferInstanceAs (Decidable (_ ∨ _))

namespace PlanIdentity

/-- A plan stored under the key is this one. -/
def Holds (identity : PlanIdentity) (store : Store) : Prop :=
  ∀ plan, store.find? .workloadPlan identity.key = some plan →
    plan.metadata.uid = identity.uid ∧ plan.spec.workloadRef = identity.workloadRef

/-- The children of the plan are the objects that have the name of its Workload. -/
def ChildrenNamed (identity : PlanIdentity) (store : Store) : Prop :=
  ∀ kind, IsChildKind kind → ∀ object ∈ (store.table kind).rows,
    ownedBy identity.uid object = true ↔ object.key = identity.workloadRef

end PlanIdentity

/-- The stores that a plan sees: it starts without children, then users and the
orchestrator edit plan and Workload, and the runtime reconciles the plan, with calls
failing and runs ending anywhere. -/
inductive RuntimeHistory (identity : PlanIdentity) : Store → Prop where
  | start {store : Store} (isPlan : identity.Holds store)
      (childless : ∀ kind, IsChildKind kind → ∀ object ∈ (store.table kind).rows,
        ownedBy identity.uid object = false ∧ object.key ≠ identity.workloadRef) :
      RuntimeHistory identity store
  | edit {before after : Store} (earlier : RuntimeHistory identity before)
      (isPlan : identity.Holds after)
      (untouched : ∀ kind, IsChildKind kind → after.table kind = before.table kind) :
      RuntimeHistory identity after
  | reconcile {settings : RuntimeSettings} {before after : Store}
      {events : List ApiEvent}
      {outcome : Outcome (Controller.ReconcileResult × Option GoError)}
      (earlier : RuntimeHistory identity before)
      (run : (reconcilePlan settings identity.key).Runs apiServer before events outcome
        after) :
      RuntimeHistory identity after

/-! ### What a reconcile keeps -/

/-- The calls of the runtime: children are created under the name of the Workload and
with the plan as their owner, patches keep the owners, and only the status of the plan is
written. -/
def ChildCall (identity : PlanIdentity) ⦃answer : Type⦄ : Call answer → Prop
  | .get _ _ | .list _ _ => True
  | .create kind object => IsChildKind kind ∧ ownedBy identity.uid object = true ∧
      object.key = identity.workloadRef
  | .patch kind base modified => IsChildKind kind ∧
      modified.metadata.ownerReferences = base.metadata.ownerReferences
  | .updateStatus kind _ => kind = .workloadPlan
  | _ => False

variable {identity : PlanIdentity} {settings : RuntimeSettings} {plan : WorkloadPlan}
  {workload : Workload} {before after : Store} {events : List ApiEvent}

theorem IsChildKind.ne_workloadPlan {kind : Kind} (child : IsChildKind kind) :
    kind ≠ .workloadPlan := by
  rcases child with rfl | rfl <;> decide

/-- A call leaves the plan the same plan. -/
theorem ChildCall.keeps_holds {answer : Type} {request : Call answer}
    {reply : Except GoError answer} (allowed : ChildCall identity request)
    (served : apiServer request before reply after) (isPlan : identity.Holds before) :
    identity.Holds after := by
  have unwritten : request.Leaves .workloadPlan → identity.Holds after := by
    intro leaves stored found
    unfold Store.find? at found
    rw [apiServer_table_of_leaves leaves served] at found
    exact isPlan stored found
  cases request with
  | get kind key => exact unwritten (.inl rfl)
  | list kind selector => exact unwritten (.inl rfl)
  | create kind object => exact unwritten (.inr allowed.1.ne_workloadPlan.symm)
  | patch kind base modified => exact unwritten (.inr allowed.1.ne_workloadPlan.symm)
  | updateStatus kind sent =>
    cases (show kind = .workloadPlan from allowed)
    intro object found
    rcases (apiServer_step served).of_find? found with old | ⟨_, ⟨stored, there, _, rfl⟩, rfl⟩
    · exact isPlan object old
    · have named := Store.key_of_find? found
      exact isPlan stored (Store.find?_eq_some.mpr ⟨Store.mem_of_find? there, named⟩)
  | update | patchStatus | delete => exact allowed.elim

/-- A call leaves the children those under the name of the Workload. -/
theorem ChildCall.keeps_childrenNamed {answer : Type} {request : Call answer}
    {reply : Except GoError answer} (allowed : ChildCall identity request)
    (served : apiServer request before reply after) (named : identity.ChildrenNamed before) :
    identity.ChildrenNamed after := by
  intro kind child object member
  have unwritten : request.Leaves kind →
      (ownedBy identity.uid object = true ↔ object.key = identity.workloadRef) := by
    intro leaves
    rw [apiServer_table_of_leaves leaves served] at member
    exact named kind child object member
  cases request with
  | get other key => exact unwritten (.inl rfl)
  | list other selector => exact unwritten (.inl rfl)
  | create other sent =>
    by_cases same : kind = other
    · subst same
      rcases (apiServer_step served).of_mem member with old | ⟨_, ⟨_, rfl⟩, rfl⟩
      · exact named kind child object old
      · exact iff_of_true allowed.2.1 allowed.2.2
    · exact unwritten (.inr same)
  | patch other base sent =>
    by_cases same : kind = other
    · subst same
      rcases (apiServer_step served).of_mem member with old | ⟨_, ⟨stored, found, rfl⟩, rfl⟩
      · exact named kind child object old
      · -- a patch that does not change the owners leaves those that are stored
        have owners : (Resource.patchedBy kind base sent stored).metadata.ownerReferences =
            stored.metadata.ownerReferences := if_pos allowed.2
        have storedMember := Store.mem_of_find? found
        have asStored := named kind child stored storedMember
        unfold ownedBy at asStored ⊢
        rw [← owners] at asStored
        exact asStored
    · exact unwritten (.inr same)
  | updateStatus other sent =>
    cases (show other = .workloadPlan from allowed)
    exact unwritten (.inr child.ne_workloadPlan)
  | update | patchStatus | delete => exact allowed.elim

/-- Both together, for a program of such calls. -/
theorem keeps_children {α : Type} {program : Client α} {outcome : Outcome α}
    (makes : program.Makes (ChildCall identity))
    (run : program.Runs apiServer before events outcome after)
    (kept : identity.Holds before ∧ identity.ChildrenNamed before) :
    identity.Holds after ∧ identity.ChildrenNamed after := by
  refine run.of_makes (fun before after =>
    identity.Holds before ∧ identity.ChildrenNamed before →
      identity.Holds after ∧ identity.ChildrenNamed after) ?_ ?_ ?_ makes kept
  · exact fun _ => id
  · exact fun first second => second ∘ first
  · exact fun _ _ allowed _ _ _ served kept =>
      ⟨allowed.keeps_holds served kept.1, allowed.keeps_childrenNamed served kept.2⟩

/-! ### The calls of a reconcile -/

/-- The identity of a plan that was read. -/
def identityOf (key : NamespacedName) (plan : WorkloadPlan) : PlanIdentity where
  key := key
  uid := plan.metadata.uid
  workloadRef := plan.spec.workloadRef

theorem createOrPatch_childCalls {kind : Kind} {noun : String}
    {specEqual : kind.Spec → kind.Spec → Bool} {adopt : kind.Spec → kind.Spec → kind.Spec}
    {object desired : kind.Object} (child : IsChildKind kind)
    (named : object.key = plan.spec.workloadRef)
    (owned : setControllerReference plan object = .ok desired) (key : NamespacedName) :
    (createOrPatch kind noun specEqual adopt desired).Makes (ChildCall (identityOf key plan)) := by
  obtain ⟨_, metadata⟩ := setControllerReference_ok owned
  refine createOrPatch_makes trivial ⟨child, ?_, ?_⟩ fun base => ⟨child, rfl⟩
  · simp [ownedBy, metadata, identityOf]
  · unfold Resource.key at named ⊢
    rw [metadata]
    exact named

theorem reconcileDeployment_childCalls (key : NamespacedName) :
    (reconcileDeployment settings plan workload).Makes (ChildCall (identityOf key plan)) := by
  rcases reconcileDeployment_cases settings plan workload with
    ⟨fault, fails⟩ | ⟨deployment, desired, equal⟩
  · rw [fails]
    trivial
  · rw [equal]
    obtain ⟨built, wasBuilt, owned⟩ := desiredDeployment_ok desired
    have metadata := (buildDeployment_ok wasBuilt).2.1
    apply createOrPatch_childCalls (.inl rfl) _ owned
    unfold Resource.key
    rw [metadata]

theorem reconcileService_childCalls (key : NamespacedName) :
    (reconcileService plan workload).Makes (ChildCall (identityOf key plan)) := by
  rcases reconcileService_cases plan workload with
    ⟨_, equal⟩ | ⟨fault, fails⟩ | ⟨exposed, service, _, _, owned, equal⟩
  · rw [equal]
    trivial
  · rw [fails]
    trivial
  · rw [equal]
    exact createOrPatch_childCalls (.inr rfl) rfl owned key

theorem applyPlan_childCalls (settings : RuntimeSettings) (plan : WorkloadPlan)
    (workload : Workload) (key : NamespacedName) :
    (applyPlan settings plan workload).Makes (ChildCall (identityOf key plan)) := by
  apply (reconcileDeployment_childCalls key).bind
  intro deployed
  cases deployed with
  | error fault => trivial
  | ok _ =>
    apply (reconcileService_childCalls key).bind
    intro exposed
    cases exposed with
    | error fault => trivial
    | ok _ =>
      apply (updateWorkloadPlanStatus_makes (fun _ => trivial) fun _ => rfl).bind
      intro updated
      cases updated <;> trivial

/-- The reads of plans and Workloads have succeeded. -/
def ReadsSucceed (events : List ApiEvent) : Prop :=
  ∀ event ∈ events, event.request.isRead = true →
    event.request.kind = .workloadPlan ∨ event.request.kind = .workload →
      event.reply.toOption.isSome = true

/-- A reconcile either ends with its reads, because one failed or the plan is for another
runtime, or it applies the plan that is stored to the Workload that is stored. -/
theorem reconcilePlan_cases {key : NamespacedName}
    {outcome : Outcome (Controller.ReconcileResult × Option GoError)}
    (run : (reconcilePlan settings key).Runs apiServer before events outcome after) :
    after = before ∧
        (ReadsSucceed events → ∀ value, outcome = .returned value →
          ∃ plan, before.find? .workloadPlan key = some plan ∧
            plan.spec.runtimeClass ≠ kubernetesRuntimeClass) ∨
      ∃ plan workload later, before.find? .workloadPlan key = some plan ∧
        plan.spec.runtimeClass = kubernetesRuntimeClass ∧
        before.find? .workload plan.spec.workloadRef = some workload ∧
        (applyPlan settings plan workload).Runs apiServer before later outcome after := by
  cases run with
  | interrupted => exact .inl ⟨rfl, nofun⟩
  | @call _ _ _ _ middle _ reply _ _ served rest =>
    simp only [done_bind] at rest
    cases reply with
    | error fault =>
      have unmoved : middle = before := apiServer_of_isRead rfl served
      subst unmoved
      dsimp only at rest
      split at rest <;> cases rest <;>
        exact .inl ⟨rfl, fun succeed =>
          absurd (succeed _ (.head _) rfl (.inl rfl)) Bool.false_ne_true⟩
    | ok plan =>
      obtain ⟨stored, rfl⟩ := apiServer_get_ok served
      dsimp only at rest
      split at rest
      next otherClass =>
        cases rest <;> exact .inl ⟨rfl, fun _ _ _ => ⟨plan, stored, otherClass⟩⟩
      next kubernetes =>
        cases rest with
        | interrupted => exact .inl ⟨rfl, nofun⟩
        | @call _ _ _ _ middle' _ reply _ _ served rest =>
          cases reply with
          | error fault =>
            have unmoved : middle' = _ := apiServer_of_isRead rfl served
            subst unmoved
            cases rest <;>
              exact .inl ⟨rfl, fun succeed => absurd
                (succeed _ (.tail _ (.head _)) rfl (.inr rfl))
                Bool.false_ne_true⟩
          | ok workload =>
            obtain ⟨storedWorkload, rfl⟩ := apiServer_get_ok served
            exact .inr ⟨plan, workload, _, stored, not_not.mp kubernetes,
              storedWorkload, rest⟩

/-- Over every history the children of the plan are the objects with its Workload's
name. -/
theorem RuntimeHistory.childrenNamed {store : Store} (history : RuntimeHistory identity store) :
    identity.Holds store ∧ identity.ChildrenNamed store := by
  induction history with
  | start isPlan childless =>
    refine ⟨isPlan, fun kind child object member => ?_⟩
    obtain ⟨unowned, otherName⟩ := childless kind child object member
    simp [unowned, otherName]
  | edit _ isPlan untouched ih =>
    refine ⟨isPlan, fun kind child object member => ?_⟩
    rw [untouched kind child] at member
    exact ih.2 kind child object member
  | reconcile _ run ih =>
    rcases reconcilePlan_cases run with
      ⟨rfl, _⟩ | ⟨plan, workload, _, stored, _, _, applied⟩
    · exact ih
    · obtain ⟨uid, ref⟩ := ih.1 plan stored
      have same : identityOf identity.key plan = identity := by
        unfold identityOf
        rw [uid, ref]
      rw [← same] at ih ⊢
      exact keeps_children (applyPlan_childCalls _ _ _ _) applied ih

/-- So a plan has at most one child of a kind, which is found under that name. -/
theorem children_eq {store : Store} {kind : Kind} (named : identity.ChildrenNamed store)
    (child : IsChildKind kind)
    (isPlan : plan.metadata.uid = identity.uid ∧ plan.spec.workloadRef = identity.workloadRef) :
    children store kind plan = (store.find? kind plan.spec.workloadRef).toList := by
  unfold children Store.find?
  rw [← Table.filter_key, isPlan.1, isPlan.2]
  apply List.filter_congr
  intro object member
  rw [Bool.eq_iff_iff, named kind child object member, decide_eq_true_iff]

/-! ### What a successful reconcile leaves -/

/-- The steps of a plan that was applied without error. -/
theorem applyPlan_ok {result : Controller.ReconcileResult}
    (run : (applyPlan settings plan workload).Runs apiServer before events
      (.returned (result, none)) after) :
    ∃ middle later first second third,
      (reconcileDeployment settings plan workload).Runs apiServer before first
        (.returned (.ok ())) middle ∧
      (reconcileService plan workload).Runs apiServer middle second (.returned (.ok ())) later ∧
      (updateWorkloadPlanStatus plan).Runs apiServer later third (.returned (.ok ())) after := by
  obtain ⟨deployed, first, _, middle, _, deploying, rest⟩ := run.exists_of_bind
  cases deployed with
  | error fault => cases rest
  | ok _ =>
    obtain ⟨served, second, _, later, _, serving, rest⟩ := rest.exists_of_bind
    cases served with
    | error fault => cases rest
    | ok _ =>
      obtain ⟨updated, third, _, final, _, updating, rest⟩ := rest.exists_of_bind
      cases updated with
      | error fault => cases rest
      | ok _ =>
        cases rest
        exact ⟨middle, later, first, second, third, deploying, serving, updating⟩

theorem serviceSpecEqual_iff {first second : CoreServiceSpec} :
    serviceSpecEqual first second = true ↔
      first.type = second.type ∧ first.ports = second.ports ∧
        (∀ key, first.selector.get? key = second.selector.get? key) ∧
        first.clusterIP = second.clusterIP := by
  simp only [serviceSpecEqual, Bool.and_eq_true, decide_eq_true_eq,
    GoMap.sameEntries_iff, and_assoc]

/-- A successful reconcile of the Service, where there are ports, leaves it with these
ports. -/
theorem reconcileService_ports
    (run : (reconcileService plan workload).Runs apiServer before events (.returned (.ok ())) after)
    (served : exposedPorts workload ≠ []) :
    ∃ service, after.find? .service plan.spec.workloadRef = some service ∧
      service.spec.ports = (exposedPorts workload).mapIdx buildServicePort := by
  rcases reconcileService_cases plan workload with
    ⟨unserved, _⟩ | ⟨fault, fails⟩ | ⟨exposed, service, ports, _, owned, equal⟩
  · exact absurd unserved served
  · rw [fails] at run
    cases run
  · rw [equal] at run
    obtain ⟨spec, metadata⟩ := setControllerReference_ok owned
    have key : service.key = plan.spec.workloadRef := by
      unfold Resource.key
      rw [metadata]
      rfl
    have fresh : serviceSpecEqual service.spec service.spec = true :=
      serviceSpecEqual_iff.mpr ⟨rfl, rfl, fun _ => rfl, rfl⟩
    obtain ⟨stored, found, settled⟩ := createOrPatch_settles fresh
      (fun base => by
        simp only [mergeSpec, mergeField_self, serviceSpecEqual_iff, get?_mergeMap_self,
          implies_true, and_self]) run
    rw [key] at found
    refine ⟨stored, found, ?_⟩
    have upToSpec := (serviceSpecEqual_iff.mp (settled_iff.mp settled).1).2.1
    rw [upToSpec]
    rw [spec, ← ports]
    rfl

/-- A successful reconcile of the Deployment leaves one. -/
theorem reconcileDeployment_stores
    (run : (reconcileDeployment settings plan workload).Runs apiServer before events
      (.returned (.ok ())) after) :
    ∃ deployment, after.find? .deployment plan.spec.workloadRef = some deployment := by
  obtain ⟨deployment, stored, desired, found, _⟩ := reconcileDeployment_settles run
  obtain ⟨built, wasBuilt, owned⟩ := desiredDeployment_ok desired
  have key : deployment.key = plan.spec.workloadRef := by
    unfold Resource.key
    rw [(setControllerReference_ok owned).2, (buildDeployment_ok wasBuilt).2.1]
  rw [key] at found
  exact ⟨stored, found⟩

/-- Without ports the Service is left alone. -/
theorem reconcileService_skips
    (run : (reconcileService plan workload).Runs apiServer before events (.returned (.ok ())) after)
    (unserved : exposedPorts workload = []) : after = before := by
  rcases reconcileService_cases plan workload with
    ⟨_, equal⟩ | ⟨fault, fails⟩ | ⟨_, _, _, served, _⟩
  · rw [equal] at run
    cases run
    rfl
  · rw [fails] at run
    cases run
  · exact absurd unserved served

/-- What an applied plan leaves under the name of the Workload. -/
theorem applyPlan_leaves {result : Controller.ReconcileResult}
    (run : (applyPlan settings plan workload).Runs apiServer before events
      (.returned (result, none)) after) :
    (∃ deployment, after.find? .deployment plan.spec.workloadRef = some deployment) ∧
      (exposedPorts workload ≠ [] →
        ∃ service, after.find? .service plan.spec.workloadRef = some service ∧
          service.spec.ports = (exposedPorts workload).mapIdx buildServicePort) ∧
      (exposedPorts workload = [] →
        after.find? .service plan.spec.workloadRef =
          before.find? .service plan.spec.workloadRef) := by
  obtain ⟨middle, later, _, _, _, deploying, serving, updating⟩ := applyPlan_ok run
  have statusOnly : ∀ kind, IsChildKind kind → ∀ key, after.find? kind key =
      later.find? kind key := by
    intro kind child key
    unfold Store.find?
    rw [table_of_makes_leaves (updateWorkloadPlanStatus_makes
      (fun _ => .inl rfl) fun _ => .inr child.ne_workloadPlan) updating]
  have noDeployment : later.table .deployment = middle.table .deployment := by
    refine table_of_makes_leaves (reconcileService_makes ?_ ?_ ?_) serving
    · exact fun _ => .inl rfl
    · exact fun _ => .inr nofun
    · exact fun _ _ => .inr nofun
  have noService : middle.table .service = before.table .service := by
    refine table_of_makes_leaves (reconcileDeployment_makes ?_ ?_ ?_) deploying
    · exact fun _ => .inl rfl
    · exact fun _ _ => .inr nofun
    · exact fun _ _ _ => .inr nofun
  refine ⟨?_, ?_, ?_⟩
  · obtain ⟨stored, found⟩ := reconcileDeployment_stores deploying
    refine ⟨stored, ?_⟩
    rw [statusOnly _ (.inl rfl)]
    exact (Store.find?_of_table noDeployment).trans found
  · intro served
    rw [statusOnly _ (.inr rfl)]
    exact reconcileService_ports serving served
  · intro unserved
    rw [statusOnly _ (.inr rfl), reconcileService_skips serving unserved]
    unfold Store.find?
    rw [noService]

/-- After a reconcile without error whose reads of plan and Workload succeeded, the
children are those called for, exactly if none was left over before it. -/
theorem children_converge_iff {result : Controller.ReconcileResult}
    (history : RuntimeHistory identity before)
    (run : (reconcilePlan settings identity.key).Runs apiServer before events
      (.returned (result, none)) after) (succeed : ReadsSucceed events)
    (stored : before.find? .workloadPlan identity.key = some plan)
    (storedWorkload : before.find? .workload plan.spec.workloadRef = some workload) :
    CalledFor plan workload after ↔ NothingLeft plan workload before := by
  have isPlan := history.childrenNamed.1 plan stored
  have named := history.childrenNamed.2
  have namedAfter := (history.reconcile run).childrenNamed.2
  have deploymentsAfter := children_eq namedAfter (.inl rfl) isPlan
  have services := children_eq named (.inr rfl) isPlan
  have servicesAfter := children_eq namedAfter (.inr rfl) isPlan
  rcases reconcilePlan_cases run with
    ⟨rfl, skipped⟩ | ⟨other, otherWorkload, _, found, kubernetes, foundWorkload, applied⟩
  · obtain ⟨other, found, otherClass⟩ := skipped succeed _ rfl
    rw [stored] at found
    cases found
    constructor
    · exact fun called => ⟨called.unserved, called.elsewhere⟩
    · exact fun nothing => ⟨(absurd · otherClass), (absurd · otherClass),
        nothing.unserved, nothing.elsewhere⟩
  · rw [stored] at found
    cases found
    rw [storedWorkload] at foundWorkload
    cases foundWorkload
    obtain ⟨⟨deployment, deployed⟩, serves, skips⟩ := applyPlan_leaves applied
    constructor
    · intro called
      refine ⟨fun _ unserved => ?_, (absurd kubernetes ·)⟩
      rw [services, ← skips unserved, ← servicesAfter]
      exact called.unserved kubernetes unserved
    · intro nothing
      refine ⟨fun _ => ?_, fun _ served => ?_, fun _ unserved => ?_,
        (absurd kubernetes ·)⟩
      · rw [deploymentsAfter, deployed]
        exact ⟨deployment, rfl, Store.key_of_find? deployed⟩
      · obtain ⟨service, there, ports⟩ := serves served
        rw [servicesAfter, there]
        exact ⟨service, rfl, Store.key_of_find? there, ports⟩
      · rw [servicesAfter, skips unserved, ← services]
        exact nothing.unserved kubernetes unserved

/-! ### A Service and its ports -/

def webIdentity : PlanIdentity where
  key := ⟨"default", "web"⟩
  uid := "u2"
  workloadRef := ⟨"default", "web"⟩

/-- A Workload that serves the given ports. -/
def servingWorkload (ports : List ServicePort) : Workload :=
  { loneWorkload with
    spec := { loneWorkload.spec with service := some { ports } } }

/-- The plan for a runtime. -/
def classPlan (runtimeClass : String) : WorkloadPlan :=
  { plainPlan with spec := { plainPlan.spec with runtimeClass } }

def webReconcile : Client (Controller.ReconcileResult × Option GoError) :=
  reconcilePlan quietRuntime webIdentity.key

/-- Port 80 is asked for. -/
@[irreducible] def askedStore : Store :=
  (Store.empty.insert .workload (servingWorkload [{ port := 80 }])).insert .workloadPlan
    (classPlan kubernetesRuntimeClass)

/-- It is served. -/
@[irreducible] def servedStore : Store := (webReconcile.execute serve [] askedStore).2.2

/-- Another port is asked for. -/
@[irreducible] def otherPortStore : Store :=
  servedStore.insert .workload (servingWorkload [{ port := 8080 }])

/-- No port is asked for any more. -/
@[irreducible] def noPortStore : Store := servedStore.insert .workload (servingWorkload [])

/-- The plan goes to another runtime. -/
@[irreducible] def movedStore : Store := servedStore.insert .workloadPlan (classPlan "nomad")

instance (store : Store) : Decidable (webIdentity.Holds store) :=
  inferInstanceAs (Decidable (∀ plan ∈ store.find? .workloadPlan webIdentity.key,
    plan.metadata.uid = webIdentity.uid ∧
      plan.spec.workloadRef = webIdentity.workloadRef))

theorem history_servedStore : RuntimeHistory webIdentity servedStore := by
  have start : RuntimeHistory webIdentity askedStore := by
    refine .start (by decide +kernel) fun kind child object member => ?_
    have none : (askedStore.table .deployment).rows = [] ∧
        (askedStore.table .service).rows = [] := by
      decide +kernel
    rcases child with rfl | rfl
    · rw [none.1] at member
      cases member
    · rw [none.2] at member
      cases member
  unfold servedStore
  exact start.reconcile (runs_execute serve webReconcile [] askedStore)

/-- An edit of the Workload or of the plan. -/
theorem history_edited {kind : Kind} {object : kind.Object} (other : ¬ IsChildKind kind)
    (isPlan : webIdentity.Holds (servedStore.insert kind object)) :
    RuntimeHistory webIdentity (servedStore.insert kind object) := by
  refine history_servedStore.edit isPlan fun child isChild => ?_
  apply Store.commit_table_of_ne
  rintro rfl
  exact other isChild

/-- The reconcile of a store reads plan and Workload, and returns no error. -/
def succeedsIn (store : Store) : Bool :=
  (webReconcile.execute serve [] store).2.1.passes (fun returned => returned.2.isNone) &&
    (webReconcile.execute serve [] store).1.all fun event =>
      !event.request.isRead || event.request.kind = .deployment ||
        event.request.kind = .service || event.reply.toOption.isSome

theorem exists_run_of_succeedsIn {store : Store} (succeeds : succeedsIn store = true) :
    ∃ events result,
      webReconcile.Runs apiServer store events (.returned (result, none))
        (webReconcile.execute serve [] store).2.2 ∧ ReadsSucceed events := by
  unfold succeedsIn at succeeds
  rw [Bool.and_eq_true, List.all_eq_true] at succeeds
  obtain ⟨⟨result, fault⟩, returned, noError⟩ := Outcome.exists_of_passes succeeds.1
  cases fault with
  | some fault => cases noError
  | none =>
    have run := runs_execute serve webReconcile [] store
    rw [returned] at run
    refine ⟨_, result, run, fun event member isRead kinds => ?_⟩
    have passed := succeeds.2 event member
    rcases kinds with isPlan | isWorkload
    · simpa [isRead, isPlan] using passed
    · simpa [isRead, isWorkload] using passed

theorem children_converge_otherPort :
    ∃ events result plan workload,
      RuntimeHistory webIdentity otherPortStore ∧
      webReconcile.Runs apiServer otherPortStore events (.returned (result, none))
        (webReconcile.execute serve [] otherPortStore).2.2 ∧
      plan.spec.runtimeClass = kubernetesRuntimeClass ∧
      exposedPorts workload = [{ port := 8080 }] ∧
      CalledFor plan workload (webReconcile.execute serve [] otherPortStore).2.2 := by
  have isPlan : webIdentity.Holds otherPortStore := by decide +kernel
  have history : RuntimeHistory webIdentity otherPortStore := by
    unfold otherPortStore at isPlan ⊢
    exact history_edited (by decide) isPlan
  have planned : (otherPortStore.find? .workloadPlan webIdentity.key).any (fun plan =>
      plan.spec.runtimeClass = kubernetesRuntimeClass &&
        plan.spec.workloadRef = webIdentity.workloadRef) = true := by
    decide +kernel
  have asked : (otherPortStore.find? .workload webIdentity.workloadRef).any (fun workload =>
      exposedPorts workload = [{ port := 8080 }]) = true := by
    decide +kernel
  obtain ⟨plan, stored, isKubernetes⟩ := (Option.any_eq_true _ _).mp planned
  obtain ⟨workload, storedWorkload, ports⟩ := (Option.any_eq_true _ _).mp asked
  rw [Bool.and_eq_true, decide_eq_true_eq, decide_eq_true_eq] at isKubernetes
  have ports := of_decide_eq_true ports
  obtain ⟨events, result, run, succeed⟩ := exists_run_of_succeedsIn
    (show succeedsIn otherPortStore = true by decide +kernel)
  rw [← isKubernetes.2] at storedWorkload
  refine ⟨events, result, plan, workload, history, run, isKubernetes.1, ports,
    (children_converge_iff history run succeed stored storedWorkload).mpr ⟨?_, ?_⟩⟩
  · intro _ unserved
    rw [ports] at unserved
    cases unserved
  · exact (absurd isKubernetes.1 ·)

/-- A Service outlives the ports it was created for, and Deployment and Service outlive
the choice of the runtime that created them, although the reconciles return no error. -/
theorem children_left_over :
    (∃ events result plan workload,
      RuntimeHistory webIdentity noPortStore ∧
      webReconcile.Runs apiServer noPortStore events (.returned (result, none))
        (webReconcile.execute serve [] noPortStore).2.2 ∧
      noPortStore.find? .workloadPlan webIdentity.key = some plan ∧
      noPortStore.find? .workload plan.spec.workloadRef = some workload ∧
      plan.spec.runtimeClass = kubernetesRuntimeClass ∧ exposedPorts workload = [] ∧
      children (webReconcile.execute serve [] noPortStore).2.2 .service plan ≠ []) ∧
    ∃ events result plan,
      RuntimeHistory webIdentity movedStore ∧
      webReconcile.Runs apiServer movedStore events (.returned (result, none))
        (webReconcile.execute serve [] movedStore).2.2 ∧
      movedStore.find? .workloadPlan webIdentity.key = some plan ∧
      plan.spec.runtimeClass ≠ kubernetesRuntimeClass ∧
      children (webReconcile.execute serve [] movedStore).2.2 .deployment plan ≠ [] ∧
      children (webReconcile.execute serve [] movedStore).2.2 .service plan ≠ [] := by
  constructor
  · have isPlan : webIdentity.Holds noPortStore := by decide +kernel
    have history : RuntimeHistory webIdentity noPortStore := by
      unfold noPortStore at isPlan ⊢
      exact history_edited (by decide) isPlan
    have planned : (noPortStore.find? .workloadPlan webIdentity.key).any (fun plan =>
        plan.spec.runtimeClass = kubernetesRuntimeClass &&
        plan.spec.workloadRef = webIdentity.workloadRef &&
        !(children (webReconcile.execute serve [] noPortStore).2.2 .service plan).isEmpty) =
          true := by
      decide +kernel
    have asked : (noPortStore.find? .workload webIdentity.workloadRef).any (fun workload =>
        (exposedPorts workload).isEmpty) = true := by
      decide +kernel
    obtain ⟨plan, stored, facts⟩ := (Option.any_eq_true _ _).mp planned
    obtain ⟨workload, storedWorkload, ports⟩ := (Option.any_eq_true _ _).mp asked
    simp only [Bool.and_eq_true, decide_eq_true_eq, Bool.not_eq_true',
      List.isEmpty_eq_false_iff] at facts
    obtain ⟨⟨kubernetes, ref⟩, left⟩ := facts
    obtain ⟨events, result, run, _⟩ := exists_run_of_succeedsIn
      (show succeedsIn noPortStore = true by decide +kernel)
    rw [← ref] at storedWorkload
    exact ⟨events, result, plan, workload, history, run, stored, storedWorkload,
      kubernetes, List.isEmpty_iff.mp ports, left⟩
  · have isPlan : webIdentity.Holds movedStore := by decide +kernel
    have history : RuntimeHistory webIdentity movedStore := by
      unfold movedStore at isPlan ⊢
      exact history_edited (by decide) isPlan
    have planned : (movedStore.find? .workloadPlan webIdentity.key).any (fun plan =>
        plan.spec.runtimeClass ≠ kubernetesRuntimeClass &&
        !(children (webReconcile.execute serve [] movedStore).2.2 .deployment
          plan).isEmpty &&
        !(children (webReconcile.execute serve [] movedStore).2.2 .service plan).isEmpty) =
          true := by
      decide +kernel
    obtain ⟨plan, stored, facts⟩ := (Option.any_eq_true _ _).mp planned
    simp only [Bool.and_eq_true, decide_eq_true_eq, Bool.not_eq_true',
      List.isEmpty_eq_false_iff] at facts
    obtain ⟨⟨otherClass, deployed⟩, left⟩ := facts
    obtain ⟨events, result, run, _⟩ := exists_run_of_succeedsIn
      (show succeedsIn movedStore = true by decide +kernel)
    exact ⟨events, result, plan, history, run, stored, otherClass, deployed, left⟩

end ScoreOrchestrator.Runtime
