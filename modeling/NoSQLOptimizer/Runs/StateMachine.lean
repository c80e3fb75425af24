import NoSQLOptimizer.ControlPlane.Tables

namespace NoSQLOptimizer.Runs

open ControlPlane

/-- `_NEXT_STATES`, the single frozen transition graph. -/
def nextStates : RunStatus → List RunStatus
  | .created => [.snapshotting, .failed]
  | .snapshotting => [.diagnosing, .failed]
  | .diagnosing => [.generatingCandidates, .failed]
  | .generatingCandidates => [.ranking, .completed, .failed]
  | .ranking => [.calibrating, .failed]
  | .calibrating => [.evaluating, .failed]
  | .evaluating => [.admission, .failed]
  | .admission => [.admitted, .completed, .failed]
  | .admitted => [.approvalPending, .approved, .failed]
  | .approvalPending => [.approved, .completed, .failed]
  | .approved => [.deploying, .failed]
  | .deploying => [.deployed, .failed]
  | .deployed => [.monitoring, .rolledBack, .rollbackBlocked, .failed]
  | .monitoring => [.completed, .rolledBack, .rollbackBlocked, .failed]
  | .completed | .rolledBack | .rollbackBlocked | .failed => []

def terminal (status : RunStatus) : Bool :=
  status = .completed || status = .rolledBack || status = .rollbackBlocked || status = .failed

/-- How far along the lifecycle a status stands. -/
def stage : RunStatus → Nat
  | .created => 0
  | .snapshotting => 1
  | .diagnosing => 2
  | .generatingCandidates => 3
  | .ranking => 4
  | .calibrating => 5
  | .evaluating => 6
  | .admission => 7
  | .admitted => 8
  | .approvalPending => 9
  | .approved => 10
  | .deploying => 11
  | .deployed => 12
  | .monitoring => 13
  | .completed | .rolledBack | .rollbackBlocked | .failed => 14

/-- Every edge of the graph leads to a later stage. -/
theorem stage_lt_of_mem_nextStates {current next : RunStatus} (h : next ∈ nextStates current) :
    stage current < stage next := by
  cases current <;> simp only [nextStates, List.mem_cons, List.not_mem_nil, or_false] at h <;>
    rcases h with rfl | rfl | rfl | rfl <;> decide

theorem nextStates_eq_nil_iff (status : RunStatus) : nextStates status = [] ↔ terminal status := by
  cases status <;> simp [nextStates, terminal]

end NoSQLOptimizer.Runs
