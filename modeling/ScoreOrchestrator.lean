import ScoreOrchestrator.Proofs.PlanFailure
import ScoreOrchestrator.Proofs.TornDeployment
import ScoreOrchestrator.Proofs.RuntimeChildren
import ScoreOrchestrator.Proofs.ClaimConvergence
import ScoreOrchestrator.Proofs.LostUpdates
import ScoreOrchestrator.Proofs.EndpointProvenance
import ScoreOrchestrator.Proofs.StaleEndpoints
import ScoreOrchestrator.Proofs.OutputProvenance
import ScoreOrchestrator.Proofs.FailedRecovery
import ScoreOrchestrator.Proofs.RetainedResources
import ScoreOrchestrator.Proofs.FixedPoint
import ScoreOrchestrator.Proofs.ResourceLimits
import ScoreOrchestrator.Proofs.Placeholders
import ScoreOrchestrator.Proofs.WatcherSafety
import ScoreOrchestrator.Proofs.Normalization
import ScoreOrchestrator.Proofs.ClaimAggregation
import ScoreOrchestrator.Proofs.ProvisionTwice
import ScoreOrchestrator.Proofs.MissingOutputs
import ScoreOrchestrator.Proofs.Materialization
import ScoreOrchestrator.Proofs.ProfileChoice
import ScoreOrchestrator.Proofs.PublishedExposures
import ScoreOrchestrator.Proofs.ConditionLists
import ScoreOrchestrator.Proofs.ComposedValues
import ScoreOrchestrator.Proofs.ConfigDeletion
import ScoreOrchestrator.Proofs.ReloadedConfig
import ScoreOrchestrator.Proofs.AtRest
