import Mathlib.Data.List.AList
import NoSQLOptimizer.Actions.Schemas

namespace NoSQLOptimizer.ControlPlane

open Adapters Actions

abbrev RunId := Nat
abbrev TargetId := Nat
abbrev CandidateId := Nat
abbrev SnapshotId := Nat
abbrev UserId := Nat
abbrev JobId := Nat
abbrev WorkerId := Nat
abbrev Time := Nat

inductive RunStatus
  | created
  | snapshotting
  | diagnosing
  | generatingCandidates
  | ranking
  | calibrating
  | evaluating
  | admission
  | admitted
  | approvalPending
  | approved
  | deploying
  | deployed
  | monitoring
  | completed
  | rolledBack
  | rollbackBlocked
  | failed
  deriving DecidableEq

inductive RunCompletionReason
  | noCandidates
  | noAdmittedCandidate
  | deploymentSucceeded
  | approvalRejected
  | legacyCompleted
  deriving DecidableEq

inductive CandidateStatus
  | proposed
  | evaluating
  | admitted
  | rejected
  deriving DecidableEq

inductive DeploymentMode
  | approvalControlled
  | fullAutonomous
  deriving DecidableEq

inductive ActionAuthority
  | autoEligibleAfterAdmission
  | permanentlyHumanGated
  | recommendationOnly
  | forbidden
  | optimizerOwnedInverseOnly
  deriving DecidableEq

inductive AuthorityType
  | autonomous
  | humanRequired
  deriving DecidableEq

structure OptimizationRun where
  targetId : TargetId
  workloadSnapshotId : Option SnapshotId := none
  status : RunStatus := .created
  requestedByUserId : UserId
  deploymentMode : DeploymentMode
  primaryMetricKey : Option String := none
  completionReason : Option RunCompletionReason := none
  deriving DecidableEq

structure Target where
  connectionLabel : String
  deploymentMode : String := "APPROVAL_CONTROLLED"
  state : String := "ACTIVE"
  isActive : Bool := true
  deriving DecidableEq

structure TargetCredential where
  id : Nat
  keyVersion : Int
  credentialType : String
  deriving DecidableEq

structure CapabilitySnapshot where
  fingerprint : String
  deriving DecidableEq

structure EvaluationMapping where
  evaluationTargetId : TargetId
  mappingStatus : String := "ACTIVE"
  deriving DecidableEq

structure Completeness where
  productionAutonomyEligible : Bool := false
  deriving DecidableEq

structure WorkloadSnapshot where
  targetId : TargetId
  completeness : Option Completeness
  deriving DecidableEq

structure DiagnosisArtifact where
  workloadSnapshotId : SnapshotId
  targetId : TargetId
  deriving DecidableEq

structure CandidateGenerationArtifact where
  candidateCount : Nat
  deriving DecidableEq

structure CandidateRankingArtifact where
  orderedCandidateIds : List CandidateId
  deriving DecidableEq

structure EvaluationPlan where
  profile : String
  selectedCandidateIds : List CandidateId
  deriving DecidableEq

structure EvaluationRun where
  status : String
  deriving DecidableEq

structure AdmissionArtifact where
  selectedCandidateId : Option CandidateId
  admittedCandidateIds : List CandidateId
  productionEligible : Bool := false
  deriving DecidableEq

structure Candidate where
  optimizationRunId : RunId
  status : CandidateStatus := .proposed
  deterministicFingerprint : Option String
  policyClassification : Option ActionAuthority
  deriving DecidableEq

structure CandidateAction where
  id : Nat
  actionType : String
  actionPayload : ActionPayload
  deriving DecidableEq

/-- `environment_binding`: digests stand for the facts they are taken of. -/
structure TargetIdentity where
  id : TargetId
  connectionLabel : String
  deploymentMode : String
  state : String
  active : Bool
  deriving DecidableEq

structure SecurityFingerprint where
  credentialId : Option Nat
  keyVersion : Option Int
  credentialType : Option String
  deriving DecidableEq

/-- The document under `authority_integrity_fingerprint`. -/
structure IntegrityFingerprint where
  runId : RunId
  candidateId : CandidateId
  candidateFingerprint : String
  deploymentMode : DeploymentMode
  authorityType : AuthorityType
  authorityReason : String
  telemetryEligible : Bool
  admissionProductionEligible : Bool
  targetIdentityFingerprint : TargetIdentity
  capabilityFingerprint : String
  securityFingerprint : SecurityFingerprint
  deriving DecidableEq

structure AuthorityDecision where
  candidateId : CandidateId
  candidateFingerprint : String
  deploymentMode : DeploymentMode
  authorityType : AuthorityType
  authorityReason : String
  productionAutonomyEligible : Bool
  integrityFingerprint : IntegrityFingerprint
  deriving DecidableEq

inductive ApprovalStatus
  | pending
  | approved
  | rejected
  deriving DecidableEq

structure ApprovalRequest where
  requestedByUserId : UserId
  actionId : Nat
  targetId : TargetId
  candidateId : CandidateId
  candidateFingerprint : String
  evidenceHash : IntegrityFingerprint
  expiresAt : Time
  status : ApprovalStatus := .pending
  deriving DecidableEq

/-- What the adapter shows of one namespace, as the services record it. -/
structure IndexState where
  database : String
  collection : String
  namespaceExists : Bool
  indexes : List IndexSpec
  deriving DecidableEq

/-- `_idempotency_key`: SHA-256 over run, candidate fingerprint and action fingerprint. -/
structure IdempotencyKey where
  runId : RunId
  candidateFingerprint : String
  actionFingerprint : ActionFingerprint
  deriving DecidableEq

inductive DeploymentStatus
  | intentRecorded
  | applied
  deriving DecidableEq

structure DeploymentArtifact where
  candidateId : CandidateId
  candidateFingerprint : String
  actionFingerprint : ActionFingerprint
  idempotencyKey : IdempotencyKey
  status : DeploymentStatus
  beforeState : IndexState
  inverseAction : DropIndexAction
  afterState : Option IndexState
  deriving DecidableEq

inductive RecoveryState
  | intentRecorded
  | executionStarted
  | effectObserved
  | executionConfirmed
  deriving DecidableEq

/-- A row of `production_action_recovery`. -/
structure RecoveryRecord where
  actionId : Nat
  targetId : TargetId
  expectedFingerprint : ActionFingerprint
  state : RecoveryState
  deriving DecidableEq

inductive LedgerEvent
  | deploymentIntent
  | deploymentApplied
  | rollbackApplied
  deriving DecidableEq

inductive LedgerAction
  | createIndex : CreateIndexAction → LedgerAction
  | dropIndex : DropIndexAction → LedgerAction
  deriving DecidableEq

/-- What the caller of `PostgresProductionLedger.append` hands over. -/
structure LedgerPayload where
  targetId : TargetId
  runId : RunId
  candidateId : CandidateId
  actionId : Nat
  eventType : LedgerEvent
  beforeState : IndexState
  intendedState : IndexState
  afterState : IndexState
  forwardAction : LedgerAction
  inverseAction : LedgerAction
  evidenceHash : IntegrityFingerprint
  actor : String
  deriving DecidableEq

/-- `_entry_hash`: the digest of an entry stands for the entry and the hash before it. -/
inductive EntryHash
  | genesis : EntryHash
  | sha256 : Nat → LedgerPayload → EntryHash → EntryHash
  deriving DecidableEq

structure LedgerEntry extends LedgerPayload where
  sequence : Nat
  previousHash : EntryHash
  entryHash : EntryHash
  deriving DecidableEq

inductive RollbackStatus
  | intentRecorded
  | rolledBack
  | rollbackBlocked
  deriving DecidableEq

inductive RollbackPayload
  | blocked : String → IndexState → RollbackPayload
  | intent : IndexState → IndexState → RollbackPayload
  | applied : IndexState → IndexState → RollbackPayload
  deriving DecidableEq

structure RollbackRecord where
  status : RollbackStatus
  rollbackPayload : RollbackPayload
  deriving DecidableEq

inductive JobStatus
  | pending
  | running
  | completed
  | failed
  deriving DecidableEq

structure JobPayload where
  runId : Option RunId := none
  continuation : Bool := false
  queueTag : Option String := none
  deriving DecidableEq

/-- A clock reading in microseconds. -/
abbrev Instant := Int

/-- A row of `jobs`, without its key. -/
structure Job where
  optimizationRunId : Option RunId := none
  kind : String := "OPTIMIZATION"
  payload : JobPayload := {}
  status : JobStatus := .pending
  attempts : Nat := 0
  createdAt : Instant := 0
  updatedAt : Instant := 0
  availableAt : Instant := 0
  leaseOwner : Option WorkerId := none
  leaseExpiresAt : Option Instant := none
  heartbeatAt : Option Instant := none
  completedAt : Option Instant := none
  failedAt : Option Instant := none
  lastErrorCode : Option String := none
  deriving DecidableEq

abbrev Jobs := AList (fun _ : JobId => Job)

/-- A row of `experience_records`, with what its writer puts in of its own. -/
structure ExperienceRecord where
  candidateId : CandidateId
  outcome : String
  monitoringStatus : String
  rollbackRequired : Bool
  actualPostdeployOutcome : String
  rollbackOutcome : Option String
  deriving DecidableEq

end NoSQLOptimizer.ControlPlane
