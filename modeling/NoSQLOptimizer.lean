import NoSQLOptimizer.Production.Footprints
import NoSQLOptimizer.Concurrency.Triple
import NoSQLOptimizer.Production.Ownership
import NoSQLOptimizer.Adapters.MongoDB
import NoSQLOptimizer.ControlPlane.Prepared
import NoSQLOptimizer.Concurrency.Trail
import NoSQLOptimizer.Production.Authority
import NoSQLOptimizer.Admission.Models
import NoSQLOptimizer.Admission.Statistics
import NoSQLOptimizer.Admission.Decision
import NoSQLOptimizer.Admission.Pairs
import NoSQLOptimizer.Admission.Rationals
import NoSQLOptimizer.Concurrency.Mutex
import NoSQLOptimizer.Concurrency.Transactions
import NoSQLOptimizer.ControlPlane.TargetLock
import NoSQLOptimizer.Production.Locked
import NoSQLOptimizer.Production.Keyed
import NoSQLOptimizer.Production.Once
import NoSQLOptimizer.Production.Accounts
import NoSQLOptimizer.Worker.Durable
import NoSQLOptimizer.Worker.Queue
import NoSQLOptimizer.Worker.Attempts
import NoSQLOptimizer.Concurrency.Fence
import NoSQLOptimizer.Production.Fence
import NoSQLOptimizer.Worker.Service
import NoSQLOptimizer.Worker.Signal
import NoSQLOptimizer.Encoding.Json
import NoSQLOptimizer.Encoding.Text
import NoSQLOptimizer.QueryShapes.Registry
import NoSQLOptimizer.QueryShapes.Literals
import NoSQLOptimizer.Telemetry.Persistence
import NoSQLOptimizer.Workloads.Integrity
import NoSQLOptimizer.AI.Provider
import NoSQLOptimizer.Diagnosis.Groundedness
import NoSQLOptimizer.Ranking.Integrity
import NoSQLOptimizer.Candidates.Durable
import NoSQLOptimizer.Ledger.Chain
import NoSQLOptimizer.Ledger.Postgres
import NoSQLOptimizer.Ledger.Appends
import NoSQLOptimizer.Workloads.Durable
import NoSQLOptimizer.Workloads.Interference
import NoSQLOptimizer.Production.QuerySettingsDurable
import NoSQLOptimizer.Production.QuerySettingsHuman
import NoSQLOptimizer.Production.QuerySettingsLedger
import NoSQLOptimizer.Approvals.Flow
import NoSQLOptimizer.Approvals.Decisions
import NoSQLOptimizer.Runs.Completion
import NoSQLOptimizer.Production.Executor
import NoSQLOptimizer.Production.QuerySettings
import NoSQLOptimizer.Rollback.OwnedIndex
import NoSQLOptimizer.Reversion.Complete
import NoSQLOptimizer.Reversion.Replay
import NoSQLOptimizer.Approvals.Calls
import NoSQLOptimizer.Evaluation.MongodbCopier
import NoSQLOptimizer.Admission.Order
import NoSQLOptimizer.Candidates.Definitions
import NoSQLOptimizer.Admission.Monotone
import NoSQLOptimizer.Admission.Durable
import NoSQLOptimizer.Evaluation.Durable
import NoSQLOptimizer.Evaluation.Frozen
import NoSQLOptimizer.Evaluation.Overlap
import NoSQLOptimizer.Production.WrongStatus
import NoSQLOptimizer.Recovery.Concurrent
import NoSQLOptimizer.Runs.Orchestrator
import NoSQLOptimizer.Worker.Optimization
import NoSQLOptimizer.Worker.Progress
import NoSQLOptimizer.Auth.Routes
import NoSQLOptimizer.Auth.Rotation
import NoSQLOptimizer.Candidates.IndexGenerator
import NoSQLOptimizer.Candidates.Generation
import NoSQLOptimizer.Candidates.Unblocked
import NoSQLOptimizer.Candidates.Idempotent
import NoSQLOptimizer.Workloads.Snapshots
import NoSQLOptimizer.Workloads.Totals
import NoSQLOptimizer.Workloads.Protection
import NoSQLOptimizer.Workloads.ManuallyCritical
import NoSQLOptimizer.Monitoring.Episodes
import NoSQLOptimizer.Monitoring.WorkloadShift
import NoSQLOptimizer.Workloads.SourceWindows
import NoSQLOptimizer.Monitoring.PostDeployment
import NoSQLOptimizer.Recommendations.IndexCleanup
import NoSQLOptimizer.Recommendations.QueryRewrite
import NoSQLOptimizer.Monitoring.Durable
import NoSQLOptimizer.Monitoring.Outcomes
import NoSQLOptimizer.Benchmarks.Commerce
import NoSQLOptimizer.Benchmarks.Reset
import NoSQLOptimizer.Benchmarks.MongodbExecutor
import NoSQLOptimizer.Benchmarks.WriteFootprint
import NoSQLOptimizer.Benchmarks.DeltaReset
import NoSQLOptimizer.Benchmarks.Ablations
import NoSQLOptimizer.Evaluation.Sandbox
import NoSQLOptimizer.Pipeline.Diagnosis
import NoSQLOptimizer.Encoding.Join
import NoSQLOptimizer.Security.Secrets
import NoSQLOptimizer.Telemetry.Literals
import NoSQLOptimizer.Concurrency.Commits
import NoSQLOptimizer.Auth.Lockout
import NoSQLOptimizer.Benchmarks.Uninterrupted
import NoSQLOptimizer.Files.Simulation
import NoSQLOptimizer.Benchmarks.Resumption
import NoSQLOptimizer.Benchmarks.Exported
import NoSQLOptimizer.Rollback.Settled
import NoSQLOptimizer.Rollback.Converges
