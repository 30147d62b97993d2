import AstrContinuum.Control.Checked
import AstrContinuum.Control.Effects
import AstrContinuum.Control.Succession
import AstrContinuum.Control.System
import AstrContinuum.Control.Connection
import AstrContinuum.Relational.Table
import AstrContinuum.Domain.Text
import AstrContinuum.Domain.Json
import AstrContinuum.Domain.Envelopes
import AstrContinuum.Domain.Jobs
import AstrContinuum.Domain.Validation
import AstrContinuum.Reorganization.Records
import AstrContinuum.Compaction.Rendering
import AstrContinuum.Storage.Schema
import AstrContinuum.Storage.Rows
import AstrContinuum.Storage.Capture
import AstrContinuum.Storage.JobQueue
import AstrContinuum.Storage.Publication
import AstrContinuum.Storage.Views
import AstrContinuum.Storage.Repository
import AstrContinuum.Storage.Effect
import AstrContinuum.Storage.Inserts
import AstrContinuum.Storage.Backfill
import AstrContinuum.Storage.Transaction
import AstrContinuum.Runtime.Types
import AstrContinuum.Runtime.ToolLoop
import AstrContinuum.Runtime.ToolGrammar
import AstrContinuum.Runtime.Retrieval
import AstrContinuum.ContextGraph.Closure
import AstrContinuum.Invariants.Journal
import AstrContinuum.Invariants.Growth
import AstrContinuum.Invariants.Chain
import AstrContinuum.Invariants.Gate
import AstrContinuum.Invariants.Jobs
import AstrContinuum.Invariants.Sidecar
import AstrContinuum.Invariants.JobRows
import AstrContinuum.Invariants.Readable
import AstrContinuum.Settlement.Faults
import AstrContinuum.Settlement.Staging
import AstrContinuum.Settlement.Terminal
import AstrContinuum.Settlement.Queue
import AstrContinuum.Settlement.Backfill
import AstrContinuum.Guarantees.Linearity
import AstrContinuum.Guarantees.Forgetting
import AstrContinuum.Guarantees.Provenance
import AstrContinuum.Guarantees.CarryForward
import AstrContinuum.Guarantees.Intents
import AstrContinuum.Guarantees.Fencing
import AstrContinuum.Guarantees.Bases
import AstrContinuum.Guarantees.Settlement
import AstrContinuum.Guarantees.Atomicity
import AstrContinuum.Guarantees.Views
import AstrContinuum.Guarantees.Journal
import AstrContinuum.Guarantees.JobTable
import AstrContinuum.Guarantees.Metrics
import AstrContinuum.Compaction.Segmenter
import AstrContinuum.Compaction.Compiler
import AstrContinuum.Compaction.Auditor
import AstrContinuum.Compaction.Worker
import AstrContinuum.Settlement.Claim
import AstrContinuum.Guarantees.Agreement
import AstrContinuum.Runtime.ToolCuts
import AstrContinuum.Adapters.ToolMetadata
import AstrContinuum.Adapters.Hooks
import AstrContinuum.Invariants.Windows
import AstrContinuum.Guarantees.ToolCuts
import AstrContinuum.Compaction.Scheduler
import AstrContinuum.Compaction.Retry
import AstrContinuum.Guarantees.RetryBudget
import AstrContinuum.Control.Positions
import AstrContinuum.Runtime.Projection
import AstrContinuum.Adapters.Boundaries
import AstrContinuum.ContextGraph.Components
import AstrContinuum.Runtime.Budget
import AstrContinuum.Guarantees.Budget
import AstrContinuum.Control.Binary64
import AstrContinuum.ContextGraph.Types
import AstrContinuum.ContextGraph.Build
import AstrContinuum.ContextGraph.LeastClosure
import AstrContinuum.ContextGraph.Live
import AstrContinuum.Guarantees.Counters
import AstrContinuum.Guarantees.Live
import AstrContinuum.Guarantees.Request
import AstrContinuum.Guarantees.Acceptance
import AstrContinuum.Guarantees.Completeness
import AstrContinuum.Guarantees.Constraints
import AstrContinuum.Guarantees.DependencyClosure
import AstrContinuum.Guarantees.EnvelopeCodec
import AstrContinuum.Guarantees.CodecLimits
import AstrContinuum.Guarantees.Extraction
import AstrContinuum.Guarantees.Fitting
import AstrContinuum.Guarantees.Heartbeat
import AstrContinuum.Guarantees.Legibility
import AstrContinuum.Guarantees.LongestCopy
import AstrContinuum.Guarantees.MaximumPrinciple
import AstrContinuum.Guarantees.Reduction
import AstrContinuum.Guarantees.ReferenceElimination
import AstrContinuum.Guarantees.Solvability
import AstrContinuum.Guarantees.TimestampText
import AstrContinuum.Guarantees.ToolOrdinals
import AstrContinuum.Guarantees.WrapperLifecycle
import AstrContinuum.Guarantees.SchemaLedger
import AstrContinuum.Adapters.ThinkingContent
import AstrContinuum.Invariants.ProjectedMessages
import AstrContinuum.Guarantees.ThinkingReplay
import AstrContinuum.Guarantees.ThinkingDisclosure
import AstrContinuum.Guarantees.Reencryption
import AstrContinuum.Invariants.ProtectedStore
import AstrContinuum.Guarantees.Activation
import AstrContinuum.Guarantees.ProviderAffinity
import AstrContinuum.Guarantees.SqlScripts
import AstrContinuum.Guarantees.ValidatedViews
