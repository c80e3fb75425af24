import NoSQLOptimizer.Concurrency.System
import NoSQLOptimizer.Runs.Orchestrator
import NoSQLOptimizer.Worker.Durable

namespace NoSQLOptimizer.Worker

open ControlPlane Concurrency Runs

variable {τ ρ : Type}

def stepLimitExceeded : Error := .permanentJob "ORCHESTRATION_STEP_LIMIT_EXCEEDED"

/-- `except OrchestrationInvariantError`. -/
def invariantFailure : Error → Proc τ OrchestrationResult
  | .orchestrationInvariant _ => .fail (.permanentJob "ORCHESTRATION_INVARIANT_FAILURE")
  | e => .fail e

def transientBlock (result : OrchestrationResult) : Error :=
  .runtime ((result.blocker.filter (· ≠ "")).getD "ORCHESTRATION_TRANSIENT_BLOCK")

/-- The loop of `handle`, with so many steps left. -/
def steps (P : Stages τ ρ) (worker : WorkerId) (r : RunId) : Nat → Proc τ PUnit
  | 0 => .fail stepLimitExceeded
  | n + 1 => do
    let result ← (orchestrate P worker r).rescue invariantFailure
    match result.outcome with
    | .terminal => return ⟨⟩
    | .blocked =>
      if result.status = .approvalPending then return ⟨⟩ else throw (transientBlock result)
    | .progressed =>
      ensureLeaseOwned worker
      steps P worker r n

/-- `OptimizationJobHandler.handle`. -/
def handle (P : Option (Stages τ ρ)) (worker : WorkerId) (job : ClaimedJob) : Proc τ PUnit :=
  match job.optimizationRunId with
  | none => .fail (.permanentJob "OPTIMIZATION_RUN_ID_REQUIRED")
  | some r => do
    Process.raiseIf (job.payload.runId.any (· ≠ r)) (.permanentJob "JOB_RUN_ID_MISMATCH")
    match ← Process.read (.run r) (·.runs r) with
    | none => throw (.permanentJob "OPTIMIZATION_RUN_NOT_FOUND")
    | some run =>
      if terminal run.status then return ⟨⟩
      else
        ensureLeaseOwned worker
        match P with
        | none => throw (.permanentJob "DURABLE_ORCHESTRATOR_REQUIRED")
        | some P => steps P worker r 32

/-- Any number of workers handle jobs and may die at any action; whatever else happens to the rows is
one more event. -/
def handlers (P : Option (Stages τ ρ)) :
    System Label (World τ) Error WorkerId ClaimedJob (World τ → World τ) where
  call := handle P
  crash := World.endSession
  env f := f

/-- Nothing else moves a run back: approvals are decided, and other requests go their way. -/
def moving (P : Option (Stages τ ρ)) : (handlers P).Conduct where
  env := Forward

end NoSQLOptimizer.Worker
