/-
Module: Api.StatusInvariant
Purpose: The proof rule for a property of all stored statuses of one kind: if each
  status that is written has it, so have all, over every interleaving.
Main exports: Store.LeavesStatuses, Store.EmptyStatuses, statusContract,
  StatusVerified.verified
-/
import ScoreOrchestrator.Api.ServerLaws
import ScoreOrchestrator.Foundation.Concurrency

namespace ScoreOrchestrator

open Foundation Program

variable {kind : Kind} {holds : kind.Status → Prop}

/-- A call that writes no object of a kind writes no status of it. -/
theorem Call.Leaves.keepsStatuses {answer : Type} {request : Call answer}
    (leaves : request.Leaves kind) : request.KeepsStatuses kind holds := by
  cases request with
  | get | list | create | update | patch | delete => trivial
  | updateStatus other object | patchStatus other object =>
    rcases leaves with reads | different
    · cases reads
    · exact fun same => absurd same.symm different

/-- Anything may have changed, but an object keeps its status or starts with an
empty one. -/
def Store.LeavesStatuses (kind : Kind) (before after : Store) : Prop :=
  ∀ object ∈ (after.table kind).rows, object.status = default ∨
    ∃ old ∈ (before.table kind).rows, old.status = object.status

/-- Every object of a kind starts with an empty status. -/
def Store.EmptyStatuses (kind : Kind) (store : Store) : Prop :=
  ∀ object ∈ (store.table kind).rows, object.status = default

theorem Store.EmptyStatuses.allStatuses {store : Store} (fresh : holds default)
    (empty : store.EmptyStatuses kind) : store.AllStatuses kind holds := by
  intro object member
  rw [empty object member]
  exact fresh

theorem Store.LeavesStatuses.allStatuses {before after : Store} (fresh : holds default)
    (leaves : before.LeavesStatuses kind after) (all : before.AllStatuses kind holds) :
    after.AllStatuses kind holds := by
  intro object member
  rcases leaves object member with empty | ⟨old, oldMember, same⟩
  · rw [empty]
    exact fresh
  · rw [← same]
    exact all old oldMember

/-- The terms of every client: the property may be relied on and is kept. -/
def statusContract (kind : Kind) (holds : kind.Status → Prop)
    (admits : List ApiEvent → ApiEvent → Prop) : Contract Call GoError Store where
  service := apiServer
  rely before after := before.AllStatuses kind holds → after.AllStatuses kind holds
  rely_refl _ := id
  rely_trans first second := second ∘ first
  admits := admits
  guarantee _ event := event.before.AllStatuses kind holds → event.after.AllStatuses kind holds

/-- A program whose calls write only statuses with the property is safe. -/
theorem safe_of_keepsStatuses (fresh : holds default) {admits : List ApiEvent → ApiEvent → Prop}
    {α : Type} {program : Client α}
    (makes : program.Makes fun _ request => request.KeepsStatuses kind holds)
    (history : List ApiEvent) (state : Store) :
    Safe (statusContract kind holds admits)
      (fun _ _ later => state.AllStatuses kind holds → later.AllStatuses kind holds)
      program history state := by
  apply Safe.of_makes makes
  intro answer request keeps history before reply after served _
  have kept := apiServer_allStatuses fresh keeps served
  exact ⟨kept, kept⟩

/-- Clients of the API server among others that leave the statuses alone, each of
them safe. -/
structure StatusVerified {Role : Type} [DecidableEq Role]
    (rules : Rules Role Call GoError Store) (kind : Kind)
    (holds : kind.Status → Prop) : Prop where
  fresh : holds default
  service : ∀ role, rules.service role = apiServer
  environment : ∀ {before after}, rules.environment before after →
    before.LeavesStatuses kind after
  safe : ∀ {role program state}, rules.starts role program →
    state.AllStatuses kind holds →
    Safe (statusContract kind holds (rules.admits role)) (fun _ _ _ => True)
      program [] state

/-- The rely/guarantee proof: each write keeps the property on its own. -/
def StatusVerified.verified {Role : Type} [DecidableEq Role] {rules : Rules Role Call GoError Store}
    (proof : StatusVerified rules kind holds) :
    Verified rules (Store.EmptyStatuses kind) where
  invariant store := store.AllStatuses kind holds
  rely _ before after := before.AllStatuses kind holds → after.AllStatuses kind holds
  rely_refl _ _ := id
  rely_trans _ _ _ _ first second := second ∘ first
  guarantee _ _ event := event.before.AllStatuses kind holds → event.after.AllStatuses kind holds
  invariant_initial := Store.EmptyStatuses.allStatuses proof.fresh
  invariant_environment all moved := (proof.environment moved).allStatuses proof.fresh all
  invariant_exchange all kept := kept all
  rely_environment _ moved := (proof.environment moved).allStatuses proof.fresh
  rely_exchange _ _ kept := kept
  safe {role program state} starts all := by
    rw [proof.service role]
    exact proof.safe starts all

/-- In every reachable system all statuses have the property. -/
theorem StatusVerified.allStatuses_of_reachable {Role : Type} [DecidableEq Role]
    {rules : Rules Role Call GoError Store} (proof : StatusVerified rules kind holds)
    {system : System Role Call GoError Store}
    (reached : Reachable rules (Store.EmptyStatuses kind) system) :
    system.state.AllStatuses kind holds :=
  (proof.verified.holds_of_reachable reached).invariant

end ScoreOrchestrator
