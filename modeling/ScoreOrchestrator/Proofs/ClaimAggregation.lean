/-
Module: Proofs.ClaimAggregation
Purpose: Exactness of claim aggregation: what readiness, reason and message say about
  the listed claims, and what the summaries carry.
-/
import ScoreOrchestrator.Controller.ClaimManager
import Mathlib.Data.List.Perm.Basic

namespace ScoreOrchestrator.Controller

open Conditions

variable (claims : List ResourceClaim)

/-! ### The loop -/

/-- What the loop has counted is what was in the claims so far. -/
structure ClaimTally.Counts (tally : ClaimTally) (claims : List ResourceClaim) : Prop where
  summaries : tally.summaries = claims.map summarize
  bound : tally.boundCount = claims.countP isBound
  failed : tally.failedCount = claims.countP isFailed

/-- One step of the loop counts its claim. -/
theorem ClaimTally.Counts.add {tally : ClaimTally} {claims : List ResourceClaim}
    (counts : tally.Counts claims) (claim : ResourceClaim) :
    (tally.add claim).Counts (claims ++ [claim]) := by
  obtain ⟨summaries, bound, failed⟩ := counts
  unfold ClaimTally.add
  -- the phases are told apart as the switch of the source does
  cases phase : claim.status.phase with
  | bound =>
    cases available : claim.status.outputsAvailable <;>
      constructor <;>
        simp [isBound, isFailed, phase, available, summaries, bound, failed]
  | failed | unset | pending | claiming | other =>
    constructor <;> simp [isBound, isFailed, phase, summaries, bound, failed]

/-- The whole loop counts all claims. -/
theorem ClaimTally.Counts.foldl {tally : ClaimTally} {claims : List ResourceClaim}
    (counts : tally.Counts claims) (rest : List ResourceClaim) :
    (rest.foldl ClaimTally.add tally).Counts (claims ++ rest) := by
  induction rest generalizing tally claims with
  | nil => simpa using counts
  | cons claim rest ih =>
    have next := ih (counts.add claim)
    rwa [List.append_assoc] at next

theorem counts_foldl : (claims.foldl ClaimTally.add {}).Counts claims := by
  have start : ClaimTally.Counts {} [] := ⟨rfl, rfl, rfl⟩
  exact start.foldl claims

/-- The two copies of the aggregation agree. -/
theorem aggregateClaimStatuses_eq : aggregateClaimStatuses claims = aggregateStatus claims := by
  unfold aggregateClaimStatuses aggregateStatus
  simp only [(counts_foldl claims).summaries, (counts_foldl claims).bound,
    (counts_foldl claims).failed]

/-! ### What the result says -/

/-- Bound, with its outputs. -/
def FullyBound (claim : ResourceClaim) : Prop :=
  claim.status.phase = .bound ∧ claim.status.outputsAvailable = true

theorem isBound_iff {claim : ResourceClaim} : isBound claim = true ↔ FullyBound claim := by
  simp [isBound, FullyBound]

/-- The summary of a claim: its own words, with Pending for an empty phase. -/
structure Summarizes (claim : ResourceClaim) (summary : ClaimSummary) : Prop where
  key : summary.key = claim.spec.key
  reason : summary.reason = claim.status.reason
  message : summary.message = claim.status.message
  outputsAvailable : summary.outputsAvailable = claim.status.outputsAvailable
  phase : summary.phase =
    if claim.status.phase = .unset then .pending else claim.status.phase

theorem summarizes_summarize (claim : ResourceClaim) : Summarizes claim (summarize claim) :=
  ⟨rfl, rfl, rfl, rfl, rfl⟩

/-- Which of the four results the claims have. -/
theorem aggregateStatus_cases :
    ((∃ claim ∈ claims, claim.status.phase = .failed) ∧
      (aggregateStatus claims).ready = false ∧
      (aggregateStatus claims).reason = reasonClaimFailed) ∨
    ((∀ claim ∈ claims, FullyBound claim) ∧
      (aggregateStatus claims).ready = true ∧
      (aggregateStatus claims).reason = reasonSucceeded) ∨
    ((¬ ∃ claim ∈ claims, claim.status.phase = .failed) ∧
      (¬ ∀ claim ∈ claims, FullyBound claim) ∧
      (aggregateStatus claims).ready = false ∧
      (aggregateStatus claims).reason = reasonClaimPending) := by
  have failedIff : claims.countP isFailed > 0 ↔ ∃ claim ∈ claims, claim.status.phase = .failed := by
    simp [List.countP_pos_iff, isFailed]
  have boundIff : claims.countP isBound = claims.length ↔ ∀ claim ∈ claims, FullyBound claim := by
    simp only [List.countP_eq_length, isBound_iff]
  unfold aggregateStatus
  split
  next none =>
    rw [List.length_eq_zero_iff.mp none]
    exact .inr (.inl ⟨by simp, rfl, rfl⟩)
  next =>
    split
    next failed => exact .inl ⟨failedIff.mp failed, rfl, rfl⟩
    next notFailed =>
      split
      next all => exact .inr (.inl ⟨boundIff.mp all, rfl, rfl⟩)
      next some =>
        exact .inr (.inr ⟨fun failed => notFailed (failedIff.mpr failed),
          fun all => some (boundIff.mpr all), rfl, rfl⟩)

/-- Readiness and reason say exactly which claims there are. -/
theorem aggregateStatus_reason :
    ((aggregateStatus claims).ready = true ∧
        (aggregateStatus claims).reason = reasonSucceeded ↔
      ∀ claim ∈ claims, FullyBound claim) ∧
    ((aggregateStatus claims).ready = true ↔
      (aggregateStatus claims).reason = reasonSucceeded) ∧
    ((aggregateStatus claims).reason = reasonClaimFailed ↔
      ∃ claim ∈ claims, claim.status.phase = .failed) ∧
    ((aggregateStatus claims).reason = reasonClaimPending ↔
      (¬ ∀ claim ∈ claims, FullyBound claim) ∧
        ¬ ∃ claim ∈ claims, claim.status.phase = .failed) := by
  -- a failed claim is not bound, so the three results exclude one another
  have apart : (∃ claim ∈ claims, claim.status.phase = .failed) →
      ¬ ∀ claim ∈ claims, FullyBound claim := by
    rintro ⟨claim, member, failed⟩ all
    have bound := (all claim member).1
    rw [failed] at bound
    cases bound
  have texts : reasonClaimFailed ≠ reasonSucceeded ∧
      reasonClaimPending ≠ reasonSucceeded ∧
      reasonClaimFailed ≠ reasonClaimPending := by
    decide +kernel
  obtain ⟨failedText, pendingText, failedPending⟩ := texts
  rcases aggregateStatus_cases claims with
    ⟨failed, unready, reason⟩ | ⟨all, ready, reason⟩ | ⟨notFailed, notAll, unready, reason⟩
  · rw [unready, reason]
    exact ⟨iff_of_false (fun both => failedText both.2) (apart failed),
      iff_of_false Bool.false_ne_true failedText, iff_of_true rfl failed,
      iff_of_false failedPending (fun neither => neither.2 failed)⟩
  · rw [ready, reason]
    exact ⟨iff_of_true ⟨rfl, rfl⟩ all, iff_of_true rfl rfl,
      iff_of_false failedText.symm (fun failed => apart failed all),
      iff_of_false pendingText.symm (fun neither => neither.1 all)⟩
  · rw [unready, reason]
    exact ⟨iff_of_false (fun both => pendingText both.2) notAll,
      iff_of_false Bool.false_ne_true pendingText, iff_of_false failedPending.symm notFailed,
      iff_of_true rfl ⟨notAll, notFailed⟩⟩

/-- The order of the claims shows in the summaries only. -/
theorem aggregateStatus_perm {claims others : List ResourceClaim} (permuted : others.Perm claims) :
    (aggregateStatus others).ready = (aggregateStatus claims).ready ∧
      (aggregateStatus others).reason = (aggregateStatus claims).reason ∧
      (aggregateStatus others).message = (aggregateStatus claims).message := by
  unfold aggregateStatus
  rw [permuted.length_eq, permuted.countP_eq isFailed, permuted.countP_eq isBound]
  split
  · exact ⟨rfl, rfl, rfl⟩
  · split
    · exact ⟨rfl, rfl, rfl⟩
    · split <;> exact ⟨rfl, rfl, rfl⟩

theorem aggregateStatus_claims : (aggregateStatus claims).claims = claims.map summarize := by
  unfold aggregateStatus
  split
  next none =>
    rw [List.length_eq_zero_iff.mp none]
    rfl
  · split
    · rfl
    · split <;> rfl

/-- Claim aggregation is exact: ready, with reason Succeeded, exactly if every claim is
Bound with its outputs; ClaimFailed exactly if one has Failed; ClaimPending exactly if
neither; the same for every order of the claims; and one summary for each claim, in
order. -/
theorem aggregateStatus_exact (claims : List ResourceClaim) :
    aggregateClaimStatuses claims = aggregateStatus claims ∧
    ((aggregateStatus claims).ready = true ∧
        (aggregateStatus claims).reason = reasonSucceeded ↔
      ∀ claim ∈ claims, FullyBound claim) ∧
    ((aggregateStatus claims).ready = true ↔
      (aggregateStatus claims).reason = reasonSucceeded) ∧
    ((aggregateStatus claims).reason = reasonClaimFailed ↔
      ∃ claim ∈ claims, claim.status.phase = .failed) ∧
    ((aggregateStatus claims).reason = reasonClaimPending ↔
      (¬ ∀ claim ∈ claims, FullyBound claim) ∧
        ¬ ∃ claim ∈ claims, claim.status.phase = .failed) ∧
    (∀ others, others.Perm claims →
      (aggregateStatus others).ready = (aggregateStatus claims).ready ∧
        (aggregateStatus others).reason = (aggregateStatus claims).reason ∧
        (aggregateStatus others).message = (aggregateStatus claims).message) ∧
    List.Forall₂ Summarizes claims (aggregateStatus claims).claims := by
  obtain ⟨bound, ready, failed, pending⟩ := aggregateStatus_reason claims
  refine ⟨aggregateClaimStatuses_eq claims, bound, ready, failed, pending,
    fun others permuted => aggregateStatus_perm permuted, ?_⟩
  rw [aggregateStatus_claims, List.forall₂_map_right_iff]
  exact List.forall₂_same.mpr fun claim _ => summarizes_summarize claim

end ScoreOrchestrator.Controller
