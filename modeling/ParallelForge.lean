import ParallelForge.Base.Table
import ParallelForge.Base.Run
import ParallelForge.Base.Text
import ParallelForge.Run.Snapshot
import ParallelForge.Run.Engine
import ParallelForge.Run.Record
import ParallelForge.Run.RoundTrip
import ParallelForge.Durable
import ParallelForge.Operation.Intent
import ParallelForge.Operation.Store
import ParallelForge.Operation.Contract
import ParallelForge.Operation.Settlement
import ParallelForge.Operation.Recovery
import ParallelForge.Operation.AtMostOnce
import ParallelForge.Command.Exclusion
import ParallelForge.Scheduling.Contract
import ParallelForge.Scheduling.Tables
import ParallelForge.Scheduling.Operations
import ParallelForge.Scheduling.Claim
import ParallelForge.Scheduling.Decisions
import ParallelForge.Scheduling.System
import ParallelForge.Scheduling.Frame
import ParallelForge.Scheduling.Steps
import ParallelForge.Scheduling.Ownership
import ParallelForge.Scheduling.Dependencies
import ParallelForge.Scheduling.Exclusive
import ParallelForge.Scheduling.Candidate
import ParallelForge.Scheduling.Fencing
import ParallelForge.Base.Waiting
import ParallelForge.Scheduling.Family
import ParallelForge.Scheduling.FamilySteps
import ParallelForge.Scheduling.FamilyDecisions
import ParallelForge.Scheduling.FamilyGrowth
import ParallelForge.Scheduling.Wakeup
import ParallelForge.Command.Control
import ParallelForge.Scheduling.Routes
import ParallelForge.Usage.Observation
import ParallelForge.Usage.Projection
import ParallelForge.Budget.Amounts
import ParallelForge.Budget.Ledger
import ParallelForge.Budget.Usage
import ParallelForge.Budget.Fit
import ParallelForge.Budget.Conservation
import ParallelForge.Budget.Transfer
import ParallelForge.Base.Breaker
import ParallelForge.Quota.Pool
import ParallelForge.Quota.Refinement
import ParallelForge.Quota.CircuitBreaker
import ParallelForge.Base.Loop
import ParallelForge.Base.Overlap
import ParallelForge.Base.Regex
import ParallelForge.Redaction.Patterns
import ParallelForge.Redaction.Cuts
import ParallelForge.Redaction.Capture
import ParallelForge.Jev.Admission
import ParallelForge.Jev.Bounds
import ParallelForge.Usage.Checkpoint
import ParallelForge.Usage.CheckpointMachine
import ParallelForge.Base.Topological
import ParallelForge.Delegation.TaskDag
import ParallelForge.Delegation.DagCharacterization
import ParallelForge.Delegation.Authority
import ParallelForge.Delegation.Progress
import ParallelForge.Approvals.Binding
import ParallelForge.Usage.SubsetLaw
import ParallelForge.Usage.TotalsLaw
import ParallelForge.Usage.ReportLaw
import ParallelForge.Base.Json
import ParallelForge.Base.JsonOrder
import ParallelForge.Base.JsonRoundTrip
import ParallelForge.Operation.CanonicalPayload
import ParallelForge.Operation.Fingerprint
import ParallelForge.Operation.Replay
import ParallelForge.Base.RowLock
import ParallelForge.Direct.Repository
import ParallelForge.Direct.Cancellation
import ParallelForge.Base.Chain
import ParallelForge.Base.Value
import ParallelForge.Release.Record
import ParallelForge.Release.Applied
import ParallelForge.Release.RecordLaw
import ParallelForge.Agents.StrictJson
import ParallelForge.Agents.ClaudeProtocol
import ParallelForge.Agents.ClaudeIdentity
import ParallelForge.Base.Talk
import ParallelForge.Release.GitHubWrite
import ParallelForge.Release.GitHubQueue
import ParallelForge.Release.MergeOperation
import ParallelForge.Release.Writes
import ParallelForge.Release.MergeOutcome
import ParallelForge.Release.QueueOutcome
import ParallelForge.Release.MergeLaw
import ParallelForge.Agents.GeminiProtocol
import ParallelForge.Agents.GeminiAuthority
import ParallelForge.Agents.GeminiRefines
import ParallelForge.Agents.GeminiSteps
import ParallelForge.Budget.Pool
import ParallelForge.Epic.GraphLaw
import ParallelForge.Base.Uuid
import ParallelForge.Epic.Snapshot
import ParallelForge.Scheduling.FeedbackFence
import ParallelForge.Base.Rotation
import ParallelForge.Scheduling.EpicScan
import ParallelForge.Usage.Continuation
import ParallelForge.Budget.RetryAllowance
import ParallelForge.Brainstorm.Charges
import ParallelForge.Brainstorm.Money
import ParallelForge.Brainstorm.Totals
import ParallelForge.Brainstorm.Admission
import ParallelForge.Brainstorm.Claim
import ParallelForge.Brainstorm.Ceiling
import ParallelForge.Base.RegexLaw
import ParallelForge.Redaction.Forms
import ParallelForge.Redaction.Reading
import ParallelForge.Redaction.Assignment
import ParallelForge.Redaction.HeadCut
import ParallelForge.Redaction.TailCut
import ParallelForge.Redaction.CredentialCuts
import ParallelForge.Base.Substitute
import ParallelForge.Redaction.DurableText
import ParallelForge.Redaction.LabelledValue
import ParallelForge.Base.Latest
import ParallelForge.Tools.BoundedStream
import ParallelForge.Usage.Cohort
import ParallelForge.Policy.Command
import ParallelForge.Agents.ClientFrames
import ParallelForge.Usage.ObservationReplay
import ParallelForge.Base.RegexAbsence
import ParallelForge.Delegation.PlanContract
import ParallelForge.Delegation.PlanApproval
import ParallelForge.Release.ReviewGate
import ParallelForge.Base.Lines
import ParallelForge.Base.PyJson
import ParallelForge.Base.PyJsonRoundTrip
import ParallelForge.Base.PyJsonText
import ParallelForge.Base.PyJsonTokens
import ParallelForge.Base.RegexGroup
import ParallelForge.Direct.Extraction
import ParallelForge.Direct.Fence
import ParallelForge.Direct.ContractObject
import ParallelForge.Direct.FinalContract
import ParallelForge.Base.LineEnds
import ParallelForge.Tools.RepositorySearch
import ParallelForge.Tools.Ripgrep
import ParallelForge.Tools.SearchRecords
import ParallelForge.Tools.SearchAgreement
import ParallelForge.Brainstorm.ChargeLaw
import ParallelForge.Usage.Breakdown
import ParallelForge.Base.PyJsonHook
import ParallelForge.Base.TableChange
import ParallelForge.Policy.DependencyScope
import ParallelForge.Policy.DependencyLaw
import ParallelForge.Tools.SearchBackends
import ParallelForge.EpicRun.Rows
import ParallelForge.EpicRun.Eligibility
import ParallelForge.EpicRun.Launch
import ParallelForge.EpicRun.Dispatch
import ParallelForge.EpicRun.Lifecycle
import ParallelForge.EpicRun.System
import ParallelForge.EpicRun.EvidenceLaw
import ParallelForge.EpicRun.LaunchLaw
import ParallelForge.EpicRun.Steps
import ParallelForge.EpicRun.DispatchOnce
import ParallelForge.EpicRun.AdmissionFence
import ParallelForge.EpicRun.LifecycleLaw
import ParallelForge.EpicRun.ControlLaw
import ParallelForge.EpicRun.ControlTruth
import ParallelForge.Base.Calendar
import ParallelForge.Base.PyJsonStrict
import ParallelForge.Evidence.Manifest
import ParallelForge.Evidence.Review
import ParallelForge.Evidence.Codec
import ParallelForge.Evidence.Leaves
import ParallelForge.Evidence.Records
import ParallelForge.Evidence.Plain
import ParallelForge.Evidence.RoundTrip
import ParallelForge.Evidence.Canonical
