import SocTalk.Lib.Float
import SocTalk.Lib.Raise
import SocTalk.Lib.Value
import SocTalk.Lib.Fnmatch
import SocTalk.Lib.ReadCommitted
import SocTalk.Lib.Transition
import SocTalk.Authorization.Facts
import SocTalk.Authorization.Engine
import SocTalk.Authorization.Windows
import SocTalk.Authorization.Render
import SocTalk.TriagePolicy.Floor
import SocTalk.TriagePolicy.Conditions
import SocTalk.TriagePolicy.Guard
import SocTalk.Worker.Disposition
import SocTalk.Runs.Store
import SocTalk.Runs.Endpoints
import SocTalk.Runs.Rules
import SocTalk.Runs.Lease
import SocTalk.Runs.Spend
import SocTalk.Proposals.Store
import SocTalk.Proposals.Decisions
import SocTalk.Proposals.Safety
import SocTalk.Graph.Routing
import SocTalk.Graph.VerdictGuard
import SocTalk.Runs.Evidence
import SocTalk.Triage.Memo
import SocTalk.Triage.Store
import SocTalk.Triage.Correlation
import SocTalk.Triage.Screens
import SocTalk.Triage.Event
import SocTalk.Triage.CloseFloor
import SocTalk.Reviews.Store
import SocTalk.Reviews.Decisions
import SocTalk.Triage.Lifecycle
import SocTalk.Triage.Terminal
import SocTalk.Agents.Installation
import SocTalk.Agents.Wedge
import SocTalk.Agents.Progress
import SocTalk.Triage.LateCompletion
import SocTalk.Deliveries.Store
import SocTalk.Deliveries.Batch
import SocTalk.Deliveries.ExactlyOnce
import SocTalk.Provisioning.Controller
import SocTalk.Provisioning.Edges
import SocTalk.Provisioning.Record
import SocTalk.Provisioning.Decisions
import SocTalk.Provisioning.Grace
import SocTalk.Provisioning.Platform
import SocTalk.Provisioning.Rollout
import SocTalk.Provisioning.Convergence
import SocTalk.Auth.Account
import SocTalk.Auth.Lockout
import SocTalk.Lib.Jsonb
import SocTalk.Projection.Reducer
import SocTalk.Projection.Panels
import SocTalk.Projection.Replay
import SocTalk.Projection.CustomerView
import SocTalk.Lib.Bytes
import SocTalk.Tokens.Token
import SocTalk.Tokens.Soundness
import SocTalk.Chat.Spend
import SocTalk.Chat.Conversation
import SocTalk.Chat.Budget
import SocTalk.Reviews.Confirm
import SocTalk.Lib.Url
import SocTalk.Llm.Provider
import SocTalk.Llm.Config
import SocTalk.Llm.Render
import SocTalk.Llm.Worker
import SocTalk.Llm.Accepted
import SocTalk.Llm.Settings
import SocTalk.Llm.Dispatched
import SocTalk.Llm.Endpoints
import SocTalk.Provisioning.Configuration
import SocTalk.Provisioning.Propagation
import SocTalk.Authorization.ResolutionKey
import SocTalk.Lib.Reorder
import SocTalk.Authorization.Reordered
import SocTalk.Authorization.Order
import SocTalk.TriagePolicy.Order
import SocTalk.TriagePolicy.Isolation
import SocTalk.Graph.Budget
import SocTalk.Runs.Unlock
import SocTalk.TriagePolicy.Models
import SocTalk.TriagePolicy.Registry
import SocTalk.TriagePolicy.Gate
import SocTalk.Graph.Run
import SocTalk.Graph.RequiredSteps
import SocTalk.TriagePolicy.Authoring
import SocTalk.TriagePolicy.Unsuppressed
import SocTalk.Graph.Shadows
import SocTalk.Response.Playbook
import SocTalk.Response.Authoring
import SocTalk.Response.Dispatch
import SocTalk.Response.Exact
import SocTalk.Lib.Embed
import SocTalk.Runs.StatusMachine
import SocTalk.Runs.StatusHistory
import SocTalk.Lib.Sessions
import SocTalk.Lib.Transaction
import SocTalk.Outbox.Executor
import SocTalk.Outbox.Progress
import SocTalk.Response.Executor
import SocTalk.Response.Gated
import SocTalk.TriagePolicy.Evaluation
import SocTalk.TriagePolicy.Meaning
import SocTalk.TriagePolicy.Sandbox
import SocTalk.TriagePolicy.Caution
import SocTalk.TriagePolicy.ShadowAudit
import SocTalk.Authorization.Coverage
import SocTalk.Authorization.Monotone
import SocTalk.TriagePolicy.Totality
import SocTalk.Lib.Cursor
import SocTalk.Projection.Passes
import SocTalk.Runs.DailyCap
import SocTalk.Authorization.Offsets
import SocTalk.Authorization.Question
import SocTalk.Authorization.AskOnce
import SocTalk.Graph.Pricing
import SocTalk.Graph.Track
import SocTalk.Graph.Attribution
import SocTalk.Graph.SoftWarn
import SocTalk.Graph.Accounting
import SocTalk.Policies.Budgets
import SocTalk.Policies.Ceilings
import SocTalk.Llm.PriceGate
import SocTalk.Lib.Alone
import SocTalk.Response.Retry
import SocTalk.Lib.Rounding
import SocTalk.Runs.Reports
import SocTalk.Runs.Unpriced
import SocTalk.Lib.Exclusion
import SocTalk.Triage.ClosePlanes
import SocTalk.Triage.VolumeCap
import SocTalk.Graph.OperationalClose
import SocTalk.Adapter.Checkpoint
import SocTalk.Adapter.Ingest
import SocTalk.Triage.Deconfliction
import SocTalk.Triage.Routine
import SocTalk.Adapter.Accounting
import SocTalk.Lib.KeyedLog
import SocTalk.Projection.Inbox
import SocTalk.Lib.Sha256
import SocTalk.Projection.Corrections
import SocTalk.Reviews.Feed
import SocTalk.Triage.CorrelationPlanes
import SocTalk.Lib.Regex
import SocTalk.Lib.RegexSub
import SocTalk.Lib.Splice
import SocTalk.Redaction.Rules
import SocTalk.Redaction.Passes
import SocTalk.Redaction.Closure
import SocTalk.Redaction.Relapse
import SocTalk.Redaction.Values
import SocTalk.Redaction.Stable
import SocTalk.Campaign.AttackPath
import SocTalk.Llm.Names
import SocTalk.Triage.Fingerprints
import SocTalk.Provisioning.RetryBudget
import SocTalk.Lib.TimeZone
import SocTalk.Runs.BudgetDay
import SocTalk.Llm.Delivery
import SocTalk.Llm.ColdStart
import SocTalk.Llm.Inference
import SocTalk.Llm.Metering
import SocTalk.Lib.Object
import SocTalk.Projection.ReplayEvents
import SocTalk.TriagePolicy.Builder
import SocTalk.TriagePolicy.Preview
