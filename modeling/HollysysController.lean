import HollysysController.Durable.Prog
import HollysysController.Durable.Run
import HollysysController.Durable.Closure
import HollysysController.Durable.Triple
import HollysysController.Durable.Trace
import HollysysController.Durable.Table
import HollysysController.Durable.Steps
import HollysysController.Durable.Paths
import HollysysController.Durable.Sql
import HollysysController.Errors
import HollysysController.Models
import HollysysController.Intents
import HollysysController.Store
import HollysysController.Delivery
import HollysysController.Leases
import HollysysController.Consumer
import HollysysController.Runtime
import HollysysController.Kanban
import HollysysController.World
import HollysysController.Columns
import HollysysController.Cards
import HollysysController.Operations
import HollysysController.ProviderCooldown
import HollysysController.Workflow
import HollysysController.History
import HollysysController.Validation
import HollysysController.Exceptions
import HollysysController.Dependencies
import HollysysController.Dispatch
import HollysysController.Acceptance
import HollysysController.CodeFlow
import HollysysController.HumanBlock
import HollysysController.Reconcile
import HollysysController.ReconcileAll
import HollysysController.Calls
import HollysysController.Startup
import HollysysController.Recover
import HollysysController.Poll
import HollysysController.StaleWorker
import HollysysController.Promotions
import HollysysController.Traversal
import HollysysController.PollIntents
import HollysysController.Stalls
import HollysysController.AttemptIdentity
import HollysysController.Resolve
import HollysysController.Bodies
import HollysysController.Start
import HollysysController.Aborts
import HollysysController.RunStates
import HollysysController.Admissions
import HollysysController.HistoryReads
import HollysysController.Passes
import HollysysController.Status
import HollysysController.GateAuthors
import HollysysController.Verdicts
import HollysysController.StateVersions
import HollysysController.Isolation
import HollysysController.LostRaces
import HollysysController.Initializing
import HollysysController.Publication
import HollysysController.WriterScope
import HollysysController.OperationLedger
import HollysysController.FlowTermination
import HollysysController.SilentExceptions
import HollysysController.SilentPasses
import HollysysController.TerminalNotices
import HollysysController.WorkerEviction
import HollysysController.Degradation
import HollysysController.ScopedOutages
import HollysysController.Redispatches
import HollysysController.Json.Schema
import HollysysController.Json.Fields
import HollysysController.CompletionFields
import HollysysController.CompletionSchema
import HollysysController.AttemptFacts
import HollysysController.Confirmations
import HollysysController.Python.Doubles
import HollysysController.Outages
import HollysysController.Backoff
import HollysysController.Graph.Dfs
import HollysysController.Python.Regex
import HollysysController.TaskDocuments
import HollysysController.TasksGrammar
import HollysysController.TaskRendering
import HollysysController.TaskDepth
import HollysysController.GateBinding
import HollysysController.PrdScope
import HollysysController.Python.Values
import HollysysController.EventDecoding
import HollysysController.RequestLedger
import HollysysController.ArtifactDigest
import HollysysController.EventReplay
import HollysysController.Outbox
import HollysysController.Markdown.Reader
import HollysysController.Messages
import HollysysController.Python.Search
import HollysysController.Python.Json
import HollysysController.Python.JsonTexts
import HollysysController.Python.Codec
import HollysysController.CardRecords
import HollysysController.CardBodies
import HollysysController.WorkerScratch
import HollysysController.SupervisorClient
import HollysysController.Durable.Ends
import HollysysController.Processes
import HollysysController.WorkerSupervisor
import HollysysController.Graph.Saturation
import HollysysController.Descendants
import HollysysController.SupervisorTermination
import HollysysController.SupervisorErrors
import HollysysController.Shell.Words
import HollysysController.Shell.Checks
import HollysysController.GitWrapper
import HollysysController.GitRoles
import HollysysController.Durable.Rows
import HollysysController.StoreHistory
import HollysysController.Python.Compact
import HollysysController.SupervisorServer
import HollysysController.CompletionTemplate
import HollysysController.Python.JsonLines
import HollysysController.Durable.Files
import HollysysController.ProfileEnv
import HollysysController.LarkConfig
import HollysysController.LarkSync
import HollysysController.Durable.Pages
import HollysysController.DeliveryAbort
import HollysysController.CompletionPreview
import HollysysController.Python.Paths
import HollysysController.Python.Urls
import HollysysController.Git.RefNames
import HollysysController.StartSources
import HollysysController.RunPlaces
import HollysysController.StartQuestions
