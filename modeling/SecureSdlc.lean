import SecureSdlc.Core.Run
import SecureSdlc.Core.Updates
import SecureSdlc.Core.Assoc
import SecureSdlc.Core.Worklist
import SecureSdlc.Core.Lexicographic
import SecureSdlc.Core.Slice
import SecureSdlc.Core.Scanning
import SecureSdlc.Core.Program
import SecureSdlc.Core.Numerals
import SecureSdlc.Core.GoText
import SecureSdlc.Core.Uuid
import SecureSdlc.Core.PyText
import SecureSdlc.Core.Bytes
import SecureSdlc.Core.Path
import SecureSdlc.Core.FileTree
import SecureSdlc.Core.Lines
import SecureSdlc.Core.Json
import SecureSdlc.Core.Python
import SecureSdlc.Core.JsonText
import SecureSdlc.Core.JsonTokens
import SecureSdlc.Core.JsonCanonical
import SecureSdlc.Core.JsonRoundTrip
import SecureSdlc.Core.JsonSpelling
import SecureSdlc.Core.JsonFailures
import SecureSdlc.Core.JsonReaders
import SecureSdlc.Core.JsonSurrogates
import SecureSdlc.Core.JsonGrammar
import SecureSdlc.Core.JsonLines
import SecureSdlc.Core.GoJson
import SecureSdlc.Core.GoDecode
import SecureSdlc.Core.ClosedObject
import SecureSdlc.Core.Schema
import SecureSdlc.Core.SchemaShape
import SecureSdlc.Core.Rego
import SecureSdlc.Contracts.Schemas
import SecureSdlc.Contracts.Events
import SecureSdlc.Contracts.OpenApi
import SecureSdlc.Policy.Decision
import SecureSdlc.Policy.ArtifactTransition
import SecureSdlc.Policy.PreToolCall
import SecureSdlc.Policy.PreDeployment
import SecureSdlc.Policy.Client
import SecureSdlc.Waiver.Enforcement
import SecureSdlc.Evidence.Pipeline
import SecureSdlc.Artifacts.Registry
import SecureSdlc.Traceability
import SecureSdlc.Runner.Capability
import SecureSdlc.Runner.Registry
import SecureSdlc.Runner.Executor
import SecureSdlc.Tools.Registry
import SecureSdlc.Tools.Builtin
import SecureSdlc.Tools.Git
import SecureSdlc.Tools.GitHub
import SecureSdlc.Tools.Vcs
import SecureSdlc.Tools.Commands
import SecureSdlc.Skills.Base
import SecureSdlc.Skills.Roles
import SecureSdlc.Skills.Runner
import SecureSdlc.Pipeline.Orchestrator
import SecureSdlc.DeployVerify.Verify
import SecureSdlc.Mcp.Protocol
import SecureSdlc.Mcp.Server
import SecureSdlc.Mcp.Bootstrap
import SecureSdlc.Mcp.Stdio
import SecureSdlc.Domain.Lifecycle
import SecureSdlc.Domain.Store
import SecureSdlc.Domain.Service
import SecureSdlc.Domain.Payload
import SecureSdlc.Publisher.Outbox
import SecureSdlc.Publisher.Interleaving
import SecureSdlc.Worker.Handler
import SecureSdlc.Worker.Wire
import SecureSdlc.Worker.Interleaving
import SecureSdlc.Gateway.Server
import SecureSdlc.Gateway.Routes
import SecureSdlc.Metatheory.LifecycleInterleaving
import SecureSdlc.Metatheory.RequestTable
import SecureSdlc.Metatheory.OutboxAgreement
import SecureSdlc.Metatheory.Ownership
import SecureSdlc.Metatheory.SubjectIsolation
import SecureSdlc.Metatheory.StoreRefinement
import SecureSdlc.Metatheory.StoreEquivalence
import SecureSdlc.Metatheory.ServiceOutcomes
import SecureSdlc.Metatheory.UnknownRequests
import SecureSdlc.Metatheory.Listings
import SecureSdlc.Metatheory.PublisherBatches
import SecureSdlc.Metatheory.EventOrder
import SecureSdlc.Metatheory.WorkerDeliveries
import SecureSdlc.Metatheory.EndToEnd
import SecureSdlc.Metatheory.EventPayloads
import SecureSdlc.Metatheory.WholeCalls
import SecureSdlc.Metatheory.ApiContract
import SecureSdlc.Metatheory.GatewayCalls
import SecureSdlc.Metatheory.GatewayContract
import SecureSdlc.Metatheory.AdmittedBodies
import SecureSdlc.Metatheory.Resources
import SecureSdlc.Metatheory.TransitionGate
import SecureSdlc.Metatheory.WaiverAgreement
import SecureSdlc.Metatheory.WaiverVerdicts
import SecureSdlc.Metatheory.WaiverDispositions
import SecureSdlc.Metatheory.CapabilityBinding
import SecureSdlc.Metatheory.TokenRoundTrip
import SecureSdlc.Metatheory.TokenMeaning
import SecureSdlc.Metatheory.Revocation
import SecureSdlc.Metatheory.AuditTrail
import SecureSdlc.Metatheory.AuditSchemas
import SecureSdlc.Metatheory.EvidenceRecovery
import SecureSdlc.Metatheory.CanonicalDigests
import SecureSdlc.Metatheory.UntrustedText
import SecureSdlc.Metatheory.ExcerptAccounting
import SecureSdlc.Metatheory.Mediation
import SecureSdlc.Metatheory.ProtectedZones
import SecureSdlc.Metatheory.ZoneWrites
import SecureSdlc.Metatheory.ZoneCommits
import SecureSdlc.Metatheory.CommandLaunches
import SecureSdlc.Metatheory.ArtifactWrites
import SecureSdlc.Metatheory.ArtifactConfinement
import SecureSdlc.Metatheory.ArtifactMap
import SecureSdlc.Metatheory.BranchNames
import SecureSdlc.Metatheory.PullRequests
import SecureSdlc.Metatheory.PullRequestRetries
import SecureSdlc.Metatheory.ExtractedJson
import SecureSdlc.Metatheory.SecurityReviews
import SecureSdlc.Metatheory.StageCalls
import SecureSdlc.Metatheory.StageFrames
import SecureSdlc.Metatheory.StageDocuments
import SecureSdlc.Metatheory.StageLinks
import SecureSdlc.Metatheory.PipelineRuns
import SecureSdlc.Metatheory.PipelineProgress
import SecureSdlc.Metatheory.PipelineTrace
import SecureSdlc.Metatheory.TraceSelection
import SecureSdlc.Metatheory.TraceOrder
import SecureSdlc.Metatheory.ArtifactRetention
import SecureSdlc.Metatheory.ModelContent
import SecureSdlc.Metatheory.ReviewBinding
import SecureSdlc.Metatheory.ReleaseEvidence
import SecureSdlc.Metatheory.ReleaseGate
import SecureSdlc.Metatheory.BridgeAnswers
import SecureSdlc.Metatheory.CapabilityInjection
