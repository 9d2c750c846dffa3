import AiAgentsSwd.Keyed.Table
import AiAgentsSwd.ReadCommitted.Serializability
import AiAgentsSwd.Planning.DependencyValidator
import AiAgentsSwd.Json.Basic
import AiAgentsSwd.Planning.Models
import AiAgentsSwd.Planning.PlanningStore
import AiAgentsSwd.Planning.DelegationStore
import AiAgentsSwd.Keyed.Evolves
import AiAgentsSwd.Planning.Invariant
import AiAgentsSwd.Planning.PlanningSpec
import AiAgentsSwd.Planning.DelegationSpec
import AiAgentsSwd.Planning.MaterializeSpec
import AiAgentsSwd.ReadCommitted.Tables
import AiAgentsSwd.Planning.Isolation
import AiAgentsSwd.Planning.DelegationIsolation
import AiAgentsSwd.Planning.ResultIsolation
import AiAgentsSwd.Planning.Runs
import AiAgentsSwd.Planning.Revisions
import AiAgentsSwd.Planning.Dependencies
import AiAgentsSwd.Planning.Ownership
import AiAgentsSwd.ReadCommitted.Client
import AiAgentsSwd.Planning.Completion
import AiAgentsSwd.Json.Loads
import AiAgentsSwd.Json.Dumps
import AiAgentsSwd.Audit.Canonical
import AiAgentsSwd.Audit.Keyring
import AiAgentsSwd.HashChain.Basic
import AiAgentsSwd.Audit.Verifier
import AiAgentsSwd.Audit.Store
import AiAgentsSwd.Audit.Coverage
import AiAgentsSwd.Audit.Writers
import AiAgentsSwd.Audit.Binding
import AiAgentsSwd.Audit.Forensics
import AiAgentsSwd.Audit.Repair
import AiAgentsSwd.Reasoning.Service
import AiAgentsSwd.Reasoning.Lifecycle
import AiAgentsSwd.Reasoning.Canonical
import AiAgentsSwd.Budget.Ledger
import AiAgentsSwd.Budget.Charges
import AiAgentsSwd.Budget.Caps
import AiAgentsSwd.ReadCommitted.Ensures
import AiAgentsSwd.ReadCommitted.Statements
import AiAgentsSwd.Tasks.Policy
import AiAgentsSwd.Tasks.Schema
import AiAgentsSwd.Tasks.ProductionApproval
import AiAgentsSwd.Tasks.AuthorizationService
import AiAgentsSwd.Tasks.ResumeService
import AiAgentsSwd.Tasks.ReplayService
import AiAgentsSwd.Tasks.Workroom
import AiAgentsSwd.Tasks.System
import AiAgentsSwd.Tasks.Effects
import AiAgentsSwd.Tasks.AuthorizationSpec
import AiAgentsSwd.Tasks.ResumeSpec
import AiAgentsSwd.Tasks.ReplaySpec
import AiAgentsSwd.Tasks.WorkroomSpec
import AiAgentsSwd.Tasks.Authorizations
import AiAgentsSwd.Tasks.Approvals
import AiAgentsSwd.Keyed.Sweep
import AiAgentsSwd.ReadCommitted.Sweeps
import AiAgentsSwd.Tasks.ReplayRequests
import AiAgentsSwd.Tasks.ResumeRequests
import AiAgentsSwd.Tasks.Expiry
import AiAgentsSwd.Tasks.ResumeMarkers
import AiAgentsSwd.Tasks.Versions
import AiAgentsSwd.Tasks.ClarificationSteps
import AiAgentsSwd.Tasks.OutboxSteps
import AiAgentsSwd.Tasks.ResumeCommands
import AiAgentsSwd.Tasks.ReplayEpisodes
import AiAgentsSwd.Tasks.Attempts
import AiAgentsSwd.Tasks.RateCaps
import AiAgentsSwd.Tasks.Lifecycle
import AiAgentsSwd.ApprovalPolicy.PathPolicy
import AiAgentsSwd.ApprovalPolicy.Evaluator
import AiAgentsSwd.ApprovalPolicy.Rails
import AiAgentsSwd.Delivery.Lifecycle
import AiAgentsSwd.Operator.Actions
import AiAgentsSwd.Operator.Entitled
import AiAgentsSwd.Orchestrator.AgentEvents
import AiAgentsSwd.Orchestrator.Gates
import AiAgentsSwd.Orchestrator.Requests
import AiAgentsSwd.Orchestrator.Settled
import AiAgentsSwd.Orchestrator.Graph
import AiAgentsSwd.Orchestrator.Progress
import AiAgentsSwd.Orchestrator.Dispatch
import AiAgentsSwd.Deliberation.Models
import AiAgentsSwd.Deliberation.Store
import AiAgentsSwd.Deliberation.Service
import AiAgentsSwd.Deliberation.Ledger
import AiAgentsSwd.Deliberation.Runs
import AiAgentsSwd.Deliberation.Convergence
import AiAgentsSwd.Deliberation.Counters
import AiAgentsSwd.Deliberation.Bounds
import AiAgentsSwd.Deliberation.Silence
import AiAgentsSwd.Symlinks.Basic
import AiAgentsSwd.Workspace.PathSafety
import AiAgentsSwd.Text.Segments
import AiAgentsSwd.Workspace.Confinement
import AiAgentsSwd.ApprovalPolicy.Promotion
import AiAgentsSwd.ApprovalPolicy.Authorised
import AiAgentsSwd.Incidents.Intake
import AiAgentsSwd.Incidents.OneOpen
import AiAgentsSwd.Qa.Agent
import AiAgentsSwd.Qa.AutoFix
import AiAgentsSwd.Transition.Measure
import AiAgentsSwd.Qa.Loop
import AiAgentsSwd.Incidents.Receiver
import AiAgentsSwd.Streams.Group
import AiAgentsSwd.AuditStream.Normalizer
import AiAgentsSwd.AuditStream.Worker
import AiAgentsSwd.AuditStream.Delivery
import AiAgentsSwd.AgentTeam.Store
import AiAgentsSwd.AgentTeam.Delivered
import AiAgentsSwd.ReadCommitted.Alone
import AiAgentsSwd.Tasks.Alone
import AiAgentsSwd.Tasks.ReplayBlocked
import AiAgentsSwd.Tasks.Denials
import AiAgentsSwd.Listing.Queue
import AiAgentsSwd.Tasks.ExpiryCycle
import AiAgentsSwd.Faults.Program
import AiAgentsSwd.Migrations.Models
import AiAgentsSwd.Migrations.Runner
import AiAgentsSwd.Migrations.Cleanup
import AiAgentsSwd.Migrations.CleanupLaw
import AiAgentsSwd.Deliberation.Precedence
import AiAgentsSwd.Operator.SessionTokens
import AiAgentsSwd.Routing.Router
import AiAgentsSwd.Diffs.Unified
import AiAgentsSwd.Routing.ByPolicy
import AiAgentsSwd.Diffs.Counts
import AiAgentsSwd.Python.Literals
import AiAgentsSwd.Python.Values
import AiAgentsSwd.CodeGen.Template
import AiAgentsSwd.CodeGen.Templates
import AiAgentsSwd.CodeGen.DataOnly
import AiAgentsSwd.CodeGen.Separate
import AiAgentsSwd.SandboxGithub.Client
import AiAgentsSwd.SandboxGithub.Refusals
import AiAgentsSwd.Autonomy.Models
import AiAgentsSwd.Autonomy.Overview
import AiAgentsSwd.Planning.Passes
import AiAgentsSwd.AgentTeam.Router
import AiAgentsSwd.Budget.Estimator
import AiAgentsSwd.Planning.Assignment
import AiAgentsSwd.Planning.PlanDiff
import AiAgentsSwd.Audit.LogRestore
import AiAgentsSwd.Planning.Executable
import AiAgentsSwd.Audit.RepairEffects
import AiAgentsSwd.Autonomy.Explained
import AiAgentsSwd.Budget.Preflight
import AiAgentsSwd.Budget.Settlement
import AiAgentsSwd.Notifications.Deliveries
import AiAgentsSwd.Notifications.Guarantees
import AiAgentsSwd.Retry.Envelopes
import AiAgentsSwd.Retry.Moves
import AiAgentsSwd.Retry.Outcomes
