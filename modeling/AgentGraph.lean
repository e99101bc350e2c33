import AgentGraph.Foundation.Transition
import AgentGraph.Foundation.Acyclic
import AgentGraph.Domain.Json
import AgentGraph.Domain.TeamGraph
import AgentGraph.Domain.TeamGraphDag
import AgentGraph.Domain.Entities
import AgentGraph.Persistence.Store
import AgentGraph.Persistence.Transactions
import AgentGraph.Runtime.WorkerInput
import AgentGraph.Runtime.TeamState
import AgentGraph.Runtime.TeamRounds
import AgentGraph.Runtime.Scheduler
import AgentGraph.Runtime.EventStreams
import AgentGraph.Manager.State
import AgentGraph.Manager.Machine
import AgentGraph.Manager.Control
import AgentGraph.Manager.Steps
import AgentGraph.Manager.Effects
import AgentGraph.Manager.Tasks
import AgentGraph.Manager.WellFormed
import AgentGraph.Manager.Handles
import AgentGraph.Manager.Completion
import AgentGraph.Manager.Lifecycle
import AgentGraph.Manager.ExecutionSpec
import AgentGraph.Manager.StartRun
import AgentGraph.Security.Records
import AgentGraph.Security.Deadlines
import AgentGraph.Security.Service
import AgentGraph.Security.Statements
import AgentGraph.Security.Revocation
import AgentGraph.Security.SecondFactor
import AgentGraph.Security.Challenges
import AgentGraph.Security.Decisions
import AgentGraph.Security.FirstPasskey
import AgentGraph.Vision.Uploads
import AgentGraph.Domain.TeamGraphGrammar
import AgentGraph.Recovery.Checkpoints
import AgentGraph.Recovery.Startup
import AgentGraph.Recovery.Components
import AgentGraph.Tools.CrashSafety
import AgentGraph.Tools.Launching
import AgentGraph.Nodes.Dispatch
import AgentGraph.Nodes.Enabled
import AgentGraph.Nodes.Probes
import AgentGraph.Security.Lockdown
import AgentGraph.Foundation.Descent
import AgentGraph.Manager.Delegation
import AgentGraph.Manager.Descendants
import AgentGraph.Manager.Orphans
import AgentGraph.Manager.ChildFailure
import AgentGraph.Manager.References
import AgentGraph.Runtime.UpstreamContext
import AgentGraph.Recovery.StoredRows
import AgentGraph.Runtime.Redaction
import AgentGraph.Tools.ApprovalWait
import AgentGraph.Tools.Invocations
import AgentGraph.Nodes.Leaks
import AgentGraph.Nodes.Sweep
import AgentGraph.Nodes.TaskWindow
import AgentGraph.Nodes.WorkerSocket
import AgentGraph.Memory.Completeness
import AgentGraph.Memory.Usage
import AgentGraph.Models.Router
import AgentGraph.Runtime.Lexi
import AgentGraph.Vision.AnalysisQueue
import AgentGraph.Vision.AnalysisStatus
import AgentGraph.Providers.OpenCodeCleanup
import AgentGraph.Security.AuditTrail
import AgentGraph.Security.SecretFiles
import AgentGraph.Security.CredentialId
import AgentGraph.Recovery.Redactor
import AgentGraph.Recovery.Checksum
import AgentGraph.Api.GraphContract
import AgentGraph.Nodes.EndToEnd
import AgentGraph.Nodes.CoreRecord
import AgentGraph.Browser.LiveFeed
import AgentGraph.Persistence.MigrationWalk
import AgentGraph.Api.ErrorReplies
import AgentGraph.Vision.FolderScans
import AgentGraph.Security.Transactions
