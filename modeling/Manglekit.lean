import Manglekit.Ai.FinalEnvelope
import Manglekit.Engine.ExplainedTiers
import Manglekit.Engine.ExternalWiring
import Manglekit.Engine.FailedReload
import Manglekit.Engine.FailedUpdate
import Manglekit.Engine.Flattener
import Manglekit.Engine.GateReload
import Manglekit.Engine.GenuineProofs
import Manglekit.Engine.Hydration
import Manglekit.Engine.RateCounting
import Manglekit.Engine.ReloadResidue
import Manglekit.Engine.SingleRule
import Manglekit.Engine.StandardLibrary
import Manglekit.Engine.SteeringVocabulary
import Manglekit.Genes.Advisory
import Manglekit.Genes.ManifestOrder
import Manglekit.Knowledge.NQuads
import Manglekit.Multiagent.CompletedNodes
import Manglekit.Multiagent.Selection
import Manglekit.Multiagent.WorkflowBounds
import Manglekit.Multiagent.WorkflowOutcome
import Manglekit.Multiagent.WorkflowParity
import Manglekit.Ooda.Halting
import Manglekit.Ooda.Outcomes
import Manglekit.Ooda.Shaving
import Manglekit.Resilience.StaleCalls
import Manglekit.Scoring.Request
import Manglekit.Sdk.ChatHistory
import Manglekit.Sdk.ResumedRuns
import Manglekit.Sdk.RetryBudget
import Manglekit.Serve.Handler
import Manglekit.Storage.QuadStore
import Manglekit.Supervisor.DenialProvenance
import Manglekit.Supervisor.GlobalDeny
import Manglekit.Supervisor.Injection
import Manglekit.Supervisor.Transparency
