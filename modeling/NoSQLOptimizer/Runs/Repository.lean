import NoSQLOptimizer.ControlPlane.World
import NoSQLOptimizer.Runs.StateMachine

namespace NoSQLOptimizer.Runs

open ControlPlane Concurrency

variable {τ : Type}

def completedEvaluation (s : World τ) (c : CandidateId) : Bool :=
  (s.evaluations c).any (·.status = "COMPLETED")

/-- The checks of `RunRepository.transition` past the graph's own, in the order they are made: what
each of them refuses, and in which words. -/
def refusals (s : World τ) (r : RunId) (run : OptimizationRun) (next : RunStatus)
    (reason : Option RunCompletionReason) : List (Bool × String) :=
  [(run.status = .snapshotting && next = .diagnosing && run.workloadSnapshotId.isNone,
      "workload snapshot is required before diagnosis"),
    (run.status = .diagnosing && next = .generatingCandidates && (s.diagnoses r).isNone,
      "durable diagnosis is required before candidate generation"),
    (run.status = .ranking && next = .calibrating && run.primaryMetricKey.isNone,
      "primary metric is required before calibration"),
    (run.status = .generatingCandidates && next = .ranking &&
        (s.generations r).all (·.candidateCount ≤ 0),
      "non-empty completed generation artifact is required before ranking"),
    (run.status = .ranking && next = .calibrating && (s.rankings r).isNone,
      "durable candidate ranking is required before calibration"),
    (run.status = .calibrating && next = .evaluating && (s.plans r).isNone,
      "durable evaluation plan is required before evaluation"),
    (run.status = .evaluating && next = .admission && (s.plans r).isNone,
      "durable evaluation plan is required before admission"),
    (run.status = .evaluating && next = .admission &&
        (s.plans r).any (fun plan => !plan.selectedCandidateIds.all (completedEvaluation s)),
      "all frozen evaluation candidates require completed durable evaluation evidence"),
    (run.status = .admission && next = .admitted &&
        ((s.admissions r).bind (·.selectedCandidateId)).isNone,
      "selected admitted candidate is required before admitted state"),
    (next = .completed && reason = none, "completed runs require a completion reason"),
    (next = .completed && run.status = .generatingCandidates &&
        ((s.generations r).map (·.candidateCount) != some 0 || reason != some .noCandidates),
      "zero-candidate completion requires a completed empty generation artifact"),
    (next = .completed && run.status = .admission &&
        ((s.admissions r).all (!·.admittedCandidateIds.isEmpty) ||
          reason != some .noAdmittedCandidate),
      "no-admission completion requires an empty durable admission artifact"),
    (next != .completed && reason.isSome,
      "completion reason is valid only for completed runs")]

/-- What `RunRepository.transition` does in its one transaction. -/
def transitionRun (r : RunId) (next : RunStatus) (reason : Option RunCompletionReason)
    (s : World τ) : Except Error (OptimizationRun × World τ) :=
  match s.runs r with
  | none => .error (.value "optimization run does not exist")
  | some run =>
    if next ∈ nextStates run.status then
      match firstRefusal (refusals s r run next reason) with
      | some message => .error (.value message)
      | none =>
        let moved := { run with status := next, completionReason := reason }
        .ok (moved, { s with runs := Function.update s.runs r (some moved) })
    else .error (.invalidStateTransition run.status next)

def transition (r : RunId) (next : RunStatus) (reason : Option RunCompletionReason := none) :
    Proc τ OptimizationRun :=
  .atomic (.transition r next) (transitionRun r next reason)

/-- All that a successful transition tells of the row and of the evidence. -/
theorem transitionRun_ok {r : RunId} {next : RunStatus} {reason : Option RunCompletionReason}
    {s s' : World τ} {moved : OptimizationRun} (h : transitionRun r next reason s = .ok (moved, s')) :
    ∃ run, s.runs r = some run ∧ next ∈ nextStates run.status ∧
      (∀ refusal ∈ refusals s r run next reason, refusal.1 = false) ∧
      moved = { run with status := next, completionReason := reason } ∧
      s' = { s with runs := Function.update s.runs r (some moved) } := by
  unfold transitionRun at h
  cases hr : s.runs r with
  | none => simp [hr] at h
  | some run =>
    simp only [hr] at h
    split at h
    · next hmem =>
      split at h
      · cases h
      · next hnone =>
        cases h
        exact ⟨run, rfl, hmem, firstRefusal_eq_none.mp hnone, rfl, rfl⟩
    · cases h

end NoSQLOptimizer.Runs
