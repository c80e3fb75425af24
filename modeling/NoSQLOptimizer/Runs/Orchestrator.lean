import Mathlib.Logic.Relation
import NoSQLOptimizer.Admission.Models
import NoSQLOptimizer.Production.Deployment

namespace NoSQLOptimizer.Runs

open Adapters Admission ControlPlane Concurrency Production

/-- An edge of the frozen graph. -/
def Edge (current next : RunStatus) : Prop := next ∈ nextStates current

/-- Strictly later in the graph. -/
abbrev Later : RunStatus → RunStatus → Prop := Relation.TransGen Edge

abbrev NotBefore : RunStatus → RunStatus → Prop := Relation.ReflTransGen Edge

section

variable {τ α : Type}

/-- Runs stay where they are, or move along the graph. -/
def Forward (s t : World τ) : Prop :=
  ∀ r run, s.runs r = some run → ∃ run', t.runs r = some run' ∧ NotBefore run.status run'.status

theorem Forward.of_eq {s t : World τ} (h : t.runs = s.runs) : Forward s t :=
  fun _ run hr => ⟨run, h ▸ hr, .refl⟩

theorem Forward.refl (s : World τ) : Forward s s := .of_eq rfl

theorem Forward.trans {s t u : World τ} (h : Forward s t) (h' : Forward t u) : Forward s u := by
  intro r run hr
  obtain ⟨run', hr', hlater⟩ := h r run hr
  obtain ⟨run'', hr'', hlater'⟩ := h' r run' hr'
  exact ⟨run'', hr'', hlater.trans hlater'⟩

/-- The process moves no run back, and does not raise the worker's own `PermanentJobError`. -/
abbrev Keeps (p : Proc τ α) : Prop :=
  p.Always (fun _ s t => Forward s t) (fun x => ∀ code, x ≠ .error (.permanentJob code))

end

/-- A stage as the orchestrator finds it. -/
structure Service (τ α : Type) where
  process : Proc τ α
  keeps : Keeps process

inductive MonitoringStatus
  | stable
  | workloadShiftDetected
  | rolledBack
  | rollbackBlocked
  deriving DecidableEq

/-- What `DurableApprovalService.request` is asked. -/
structure BoundRequest where
  actionId : Nat
  targetId : TargetId
  candidateId : CandidateId
  candidateFingerprint : String
  evidenceHash : IntegrityFingerprint
  requesterId : UserId
  optimizationRunId : RunId

/-- The services of the orchestrator; the `Except` is of the errors that it catches itself, by their
codes. -/
structure Stages (τ ρ : Type) where
  createSnapshot : RunId → Service τ (Except String PUnit)
  verifySnapshotIntegrity : SnapshotId → Service τ (Except String Bool)
  diagnosis : Option ((RunId → Service τ (Except String Nat)) × (Nat → Service τ (Except String Bool)))
  candidates : Option (RunId → Service τ (Except String Nat))
  ranking : Option (RunId → Service τ (Except String PUnit))
  evaluation : Option (RunId → BenchmarkProfile → Service τ (Except String PUnit))
  evaluationExecutor : Option (RunId → Service τ PUnit)
  admission : Option (RunId → ρ → Service τ (Option CandidateId))
  admissionRequests : Option (RunId → Service τ ρ)
  authority : Option (RunId → Service τ (AuthorityDecision × Bool))
  approvals : Option (BoundRequest → Service τ PUnit)
  deployment : Option (DatabaseAdapter τ)
  monitoringExecutor : Option (RunId → Service τ MonitoringStatus)

inductive OrchestrationOutcome
  | progressed
  | blocked
  | terminal
  deriving DecidableEq

structure OrchestrationResult where
  outcome : OrchestrationOutcome
  status : RunStatus
  blocker : Option String := none

variable {τ ρ α : Type}

def advance (r : RunId) (next : RunStatus) (reason : Option RunCompletionReason := none) :
    Proc τ OrchestrationResult := do
  let transitioned ← transition r next reason
  return ⟨.progressed, transitioned.status, none⟩

def block (status : RunStatus) (blocker : String) : Proc τ OrchestrationResult :=
  .ret ⟨.blocked, status, some blocker⟩

/-- `except .. as error: BLOCKED`, around a stage and what comes after it. -/
def unblocked (status : RunStatus) (stage : Proc τ (Except String α))
    (next : α → Proc τ OrchestrationResult) : Proc τ OrchestrationResult := do
  match ← stage with
  | .error blocker => block status blocker
  | .ok a => next a

def invariantError (violated : Bool) (message : String) : Proc τ PUnit :=
  .raiseIf violated (.orchestrationInvariant message)

section

variable (P : Stages τ ρ) (worker : WorkerId) (r : RunId)

def snapshotFor (run : OptimizationRun) : Proc τ (Except String PUnit) :=
  if run.workloadSnapshotId = none then do
    ensureLeaseOwned worker
    (P.createSnapshot r).process
  else .ret (.ok ⟨⟩)

def runSnapshotting (run : OptimizationRun) : Proc τ OrchestrationResult :=
  unblocked .snapshotting (snapshotFor P worker r run) (fun _ => do
    let refreshed ← Process.read (.run r) (·.runs r)
    match refreshed.bind (·.workloadSnapshotId) with
    | none => throw (.orchestrationInvariant "snapshot service did not attach a workload snapshot")
    | some snapshotId =>
      unblocked .snapshotting (P.verifySnapshotIntegrity snapshotId).process (fun verified => do
        invariantError (!verified) "workload snapshot integrity verification failed"
        ensureLeaseOwned worker
        advance r .diagnosing))

def runDiagnosing : Proc τ OrchestrationResult :=
  match P.diagnosis with
  | none => block .diagnosing "DIAGNOSIS_SERVICE_UNAVAILABLE"
  | some diagnosis => do
    ensureLeaseOwned worker
    unblocked .diagnosing (diagnosis.1 r).process (fun diagnosisId =>
      unblocked .diagnosing (diagnosis.2 diagnosisId).process (fun verified => do
        invariantError (!verified) "diagnosis integrity verification failed"
        ensureLeaseOwned worker
        advance r .generatingCandidates))

def runGeneratingCandidates : Proc τ OrchestrationResult :=
  match P.candidates with
  | none => block .generatingCandidates "CANDIDATE_GENERATION_SERVICE_UNAVAILABLE"
  | some createForRun => do
    ensureLeaseOwned worker
    unblocked .generatingCandidates (createForRun r).process (fun candidateCount => do
      ensureLeaseOwned worker
      if candidateCount = 0 then advance r .completed (some .noCandidates)
      else advance r .ranking)

def runRanking : Proc τ OrchestrationResult :=
  match P.ranking with
  | none => block .ranking "CANDIDATE_RANKING_SERVICE_UNAVAILABLE"
  | some createForRun => do
    ensureLeaseOwned worker
    unblocked .ranking (createForRun r).process (fun _ => do
      ensureLeaseOwned worker
      advance r .calibrating)

def runCalibrating (run : OptimizationRun) : Proc τ OrchestrationResult :=
  match P.evaluation with
  | none => block .calibrating "EVALUATION_SERVICE_UNAVAILABLE"
  | some createPlanForRun => do
    ensureLeaseOwned worker
    let profile := if run.deploymentMode = .fullAutonomous then BenchmarkProfile.autonomous else .smoke
    unblocked .calibrating (createPlanForRun r profile).process (fun _ => do
      ensureLeaseOwned worker
      advance r .evaluating)

def runEvaluating : Proc τ OrchestrationResult :=
  match P.evaluationExecutor with
  | none => block .evaluating "ISOLATED_BENCHMARK_EXECUTOR_REQUIRED"
  | some execute => do
    ensureLeaseOwned worker
    (execute r).process
    ensureLeaseOwned worker
    advance r .admission

def runAdmission : Proc τ OrchestrationResult :=
  match P.admission, P.admissionRequests with
  | some decideForRun, some requests => do
    ensureLeaseOwned worker
    let evidence ← (requests r).process
    let selectedCandidateId ← (decideForRun r evidence).process
    ensureLeaseOwned worker
    if selectedCandidateId = none then advance r .completed (some .noAdmittedCandidate)
    else advance r .admitted
  | _, _ => block .admission "ADMISSION_SERVICE_UNAVAILABLE"

def createBoundApproval (request : BoundRequest → Service τ PUnit) (run : OptimizationRun)
    (authority : AuthorityDecision) : Proc τ PUnit := do
  match ← Process.read (.stage r) (·.candidateActions authority.candidateId) with
  | none => throw (.orchestrationInvariant "selected candidate has no typed action")
  | some action =>
    (request
      { actionId := action.id
        targetId := run.targetId
        candidateId := authority.candidateId
        candidateFingerprint := authority.candidateFingerprint
        evidenceHash := authority.integrityFingerprint
        requesterId := run.requestedByUserId
        optimizationRunId := r }).process

def runAdmitted (run : OptimizationRun) : Proc τ OrchestrationResult :=
  match P.authority with
  | none => block .admitted "AUTHORITY_SERVICE_UNAVAILABLE"
  | some decideForRun => do
    let authority ← (decideForRun r).process
    ensureLeaseOwned worker
    if authority.2 then advance r .approved
    else match P.approvals with
      | none => block .admitted "APPROVAL_SERVICE_UNAVAILABLE"
      | some request => do
        createBoundApproval r request run authority.1
        ensureLeaseOwned worker
        let transitioned ← transition r .approvalPending
        block transitioned.status "WAITING_FOR_APPROVAL"

/-- An APPROVED run, or one that was left DEPLOYING. -/
def runDeploying (status : RunStatus) : Proc τ OrchestrationResult :=
  match P.deployment with
  | none => block status "DURABLE_DEPLOYMENT_SERVICE_UNAVAILABLE"
  | some A => do
    let _ ← deployForRun A worker r
    match ← Process.read (.run r) (·.runs r) with
    | none => throw (.orchestrationInvariant "run disappeared after durable deployment")
    | some refreshed => return ⟨.progressed, refreshed.status, none⟩

def runMonitoring : Proc τ OrchestrationResult :=
  match P.monitoringExecutor with
  | none => block .monitoring "MONITORING_EVIDENCE_UNAVAILABLE"
  | some monitor => do
    let status ← (monitor r).process
    ensureLeaseOwned worker
    match status with
    | .stable | .workloadShiftDetected => advance r .completed (some .deploymentSucceeded)
    | .rolledBack => advance r .rolledBack
    | .rollbackBlocked => advance r .rollbackBlocked

def activeTarget (target : Option Target) : Bool :=
  target.any (fun target => target.isActive && target.state = "ACTIVE")

/-- `_validate_created`. -/
def validateCreated (run : OptimizationRun) : Proc τ PUnit := do
  let target ← Process.read (.stage r) (·.targets run.targetId)
  invariantError (!activeTarget target) "run target is not active"
  let mapping ← Process.read (.stage r) (fun s =>
    (s.evaluationMappings run.targetId).filter (·.mappingStatus = "ACTIVE"))
  let jobCount ← Process.read .job (fun s => (s.jobs.entries.filter (fun e =>
    e.2.optimizationRunId = some r && e.2.kind = "OPTIMIZATION")).length)
  match mapping.filter (·.evaluationTargetId ≠ run.targetId) with
  | none => throw (.orchestrationInvariant "run has no valid distinct evaluation target")
  | some mapping =>
    let evaluationTarget ← Process.read (.stage r) (·.targets mapping.evaluationTargetId)
    invariantError (!activeTarget evaluationTarget) "evaluation target is not active"
    invariantError (jobCount ≠ 1)
      "run must have exactly one authoritative initial optimization job"

/-- What `run` does once it has read the row. -/
def resume (run : OptimizationRun) : Proc τ OrchestrationResult :=
  match run.status with
  | .completed | .rolledBack | .rollbackBlocked | .failed => .ret ⟨.terminal, run.status, none⟩
  | .created => do
    validateCreated r run
    ensureLeaseOwned worker
    advance r .snapshotting
  | .snapshotting => runSnapshotting P worker r run
  | .diagnosing => runDiagnosing P worker r
  | .generatingCandidates => runGeneratingCandidates P worker r
  | .ranking => runRanking P worker r
  | .calibrating => runCalibrating P worker r run
  | .evaluating => runEvaluating P worker r
  | .admission => runAdmission P worker r
  | .admitted => runAdmitted P worker r run
  | .approvalPending => block .approvalPending "WAITING_FOR_APPROVAL"
  | .approved | .deploying => runDeploying P worker r run.status
  | .deployed => do
    ensureLeaseOwned worker
    advance r .monitoring
  | .monitoring => runMonitoring P worker r

/-- `OptimizationRunOrchestrator.run`. -/
def orchestrate : Proc τ OrchestrationResult := do
  ensureLeaseOwned worker
  match ← Process.read (.run r) (·.runs r) with
  | none => throw (.orchestrationInvariant "optimization run does not exist")
  | some run => resume P worker r run

end

end NoSQLOptimizer.Runs
