import NoSQLOptimizer.AI.Provider
import NoSQLOptimizer.Concurrency.System
import NoSQLOptimizer.Workloads.Durable

namespace NoSQLOptimizer.Diagnosis

open ControlPlane Concurrency Encoding Workloads AI

def schemaVersion : String := "r19f-diagnosis-v1"

def promptVersion : String := "v1"

inductive DiagnosisFailureCode
  | snapshotMissing
  | snapshotRunMismatch
  | snapshotTargetMismatch
  | snapshotIntegrityFailure
  | diagnosisSchemaInvalid
  | unknownQueryShapeReference
  | unknownEvidenceReference
  | diagnosisIntegrityFailure
  | provider : ProviderFailureCode → DiagnosisFailureCode
  deriving DecidableEq

def ProviderFailureCode.value : ProviderFailureCode → String
  | .unavailable => "AI_PROVIDER_UNAVAILABLE"
  | .timeout => "AI_PROVIDER_TIMEOUT"
  | .httpError => "AI_PROVIDER_HTTP_ERROR"
  | .structuredOutputUnsupported => "AI_STRUCTURED_OUTPUT_UNSUPPORTED"
  | .responseSchemaInvalid => "AI_RESPONSE_SCHEMA_INVALID"

def DiagnosisFailureCode.value : DiagnosisFailureCode → String
  | snapshotMissing => "SNAPSHOT_MISSING"
  | snapshotRunMismatch => "SNAPSHOT_RUN_MISMATCH"
  | snapshotTargetMismatch => "SNAPSHOT_TARGET_MISMATCH"
  | snapshotIntegrityFailure => "SNAPSHOT_INTEGRITY_FAILURE"
  | diagnosisSchemaInvalid => "DIAGNOSIS_SCHEMA_INVALID"
  | unknownQueryShapeReference => "UNKNOWN_QUERY_SHAPE_REFERENCE"
  | unknownEvidenceReference => "UNKNOWN_EVIDENCE_REFERENCE"
  | diagnosisIntegrityFailure => "DIAGNOSIS_INTEGRITY_FAILURE"
  | provider code => ProviderFailureCode.value code

/-- `DiagnosisServiceError`, the snapshot service's error, and what the database raises. -/
inductive Error
  | diagnosis : DiagnosisFailureCode → Bool → Error
  | snapshot : Workloads.Error → Error
  | noResultFound
  | integrity : String → Error
  | assertion
  deriving DecidableEq

def refused (code : DiagnosisFailureCode) : Error := .diagnosis code false

abbrev RowId := Nat

/-- A snapshot with the primary keys of the rows below it.  No two of these rows share the key that
they are listed by, so that they are listed in one order. -/
structure Snapshot where
  row : WorkloadSnapshot String
  shapeIds : List RowId
  metricIds : List RowId
  shapes_length : shapeIds.length = row.queryShapes.length
  metrics_length : metricIds.length = row.metrics.length
  shapes_nodup : (row.queryShapes.map (·.queryShapeHash)).Nodup
  metrics_nodup : (row.metrics.map (·.sourceMetricObservationId)).Nodup

namespace Snapshot

def queryShapes (a : Snapshot) : List (RowId × ShapeEvidence) :=
  (a.shapeIds.zip a.row.queryShapes).insertionSort (·.2.queryShapeHash ≤ ·.2.queryShapeHash)

def metrics (a : Snapshot) : List (RowId × MetricEvidence) :=
  (a.metricIds.zip a.row.metrics).insertionSort
    (·.2.sourceMetricObservationId ≤ ·.2.sourceMetricObservationId)

end Snapshot

structure ShapeView where
  queryShapeId : String
  evidenceRef : String
  queryShapeHash : String
  operation : String
  namespaceName : String
  workloadOperationShare : ℚ
  executionTimeShare : Option ℚ
  baseProtected : Bool
  manual : Bool
  operationShare : Bool
  executionShare : Bool
  provider : String
  deriving DecidableEq

structure MetricView where
  evidenceRef : String
  scope : String
  metricName : String
  metricValue : ℚ
  deriving DecidableEq

structure DiagnosisEvidenceView where
  snapshotId : String
  snapshotFingerprint : String
  targetId : String
  completeness : Json
  queryShapes : List ShapeView
  metrics : List MetricView
  deriving DecidableEq

section Documents

def ShapeView.document (v : ShapeView) : Json :=
  .object [("query_shape_id", .str v.queryShapeId), ("evidence_ref", .str v.evidenceRef),
    ("query_shape_hash", .str v.queryShapeHash), ("operation", .str v.operation),
    ("namespace", .str v.namespaceName),
    ("workload_operation_share", number v.workloadOperationShare),
    ("execution_time_share", optional number v.executionTimeShare),
    ("base_protected", .bool v.baseProtected),
    ("protection", .object [("manual", .bool v.manual), ("operation_share", .bool v.operationShare),
      ("execution_share", .bool v.executionShare)]), ("provider", .str v.provider)]

def MetricView.document (v : MetricView) : Json :=
  .object [("evidence_ref", .str v.evidenceRef), ("scope", .str v.scope),
    ("metric_name", .str v.metricName), ("metric_value", number v.metricValue)]

/-- `canonical_json`. -/
def DiagnosisEvidenceView.canonicalJson (v : DiagnosisEvidenceView) : Json :=
  (Json.object [("snapshot_id", .str v.snapshotId),
    ("snapshot_fingerprint", .str v.snapshotFingerprint), ("target_id", .str v.targetId),
    ("completeness", v.completeness), ("query_shapes", .list (v.queryShapes.map (·.document))),
    ("metrics", .list (v.metrics.map (·.document)))]).canonical

end Documents

def shapeView (id : RowId) (e : ShapeEvidence) : ShapeView where
  queryShapeId := toString e.queryShapeId
  evidenceRef := "QS:" ++ toString id
  queryShapeHash := e.queryShapeHash
  operation := e.operation
  namespaceName := e.namespaceName
  workloadOperationShare := e.workloadOperationShare
  executionTimeShare := e.executionTimeShare
  baseProtected := e.baseProtected
  manual := e.protectedManualCritical
  operationShare := e.protectedOperationShare
  executionShare := e.protectedExecutionTimeShare
  provider := e.provider

def metricView (id : RowId) (m : MetricEvidence) : MetricView where
  evidenceRef := "METRIC:" ++ toString id
  scope := m.scope
  metricName := m.metricName
  metricValue := m.metricValue

def buildEvidenceView (a : Snapshot) : DiagnosisEvidenceView where
  snapshotId := toString a.row.id
  snapshotFingerprint := a.row.fingerprint
  targetId := toString a.row.targetId
  completeness := if a.row.completeness = .null then .object [] else a.row.completeness
  queryShapes := a.queryShapes.map (fun row => shapeView row.1 row.2)
  metrics := a.metrics.map (fun row => metricView row.1 row.2)

def allowedEvidenceRefs (view : DiagnosisEvidenceView) : List String :=
  ("SNAPSHOT:" ++ view.snapshotId) :: (view.queryShapes.map (·.evidenceRef) ++
    view.metrics.map (·.evidenceRef))

/-- The loop of `_validate_output`: `seen` are the ids of the findings before. -/
def validateFindings (view : DiagnosisEvidenceView) (seen : List String) :
    List DiagnosisFinding → Except DiagnosisFailureCode Unit
  | [] => .ok ()
  | f :: findings =>
    if f.findingId.1 ∈ seen then .error .diagnosisSchemaInvalid
    else if ¬ f.queryShapeIds ⊆ view.queryShapes.map (·.queryShapeId) then
      .error .unknownQueryShapeReference
    else if ¬ f.evidenceRefs.1 ⊆ allowedEvidenceRefs view then .error .unknownEvidenceReference
    else validateFindings view (f.findingId.1 :: seen) findings

def validateOutput (output : DiagnosisArtifactResult) (view : DiagnosisEvidenceView) :
    Except DiagnosisFailureCode Unit :=
  validateFindings view [] output.findings

/-- A row of `diagnosis_artifacts`, with its findings; and what is read of it. -/
structure DiagnosisArtifactRead where
  diagnosisId : Nat
  optimizationRunId : RunId
  workloadSnapshotId : SnapshotId
  targetId : TargetId
  aiInvocationId : Nat
  schemaVersion : String
  sourceSnapshotFingerprint : String
  deterministicEvidenceHash : String
  artifactFingerprint : String
  findings : List DiagnosisFinding
  deriving DecidableEq

/-- The control plane's tables, as far as diagnoses concern them, and the clock.  `returned` is a log
of this model: what was returned for which run. -/
structure Store where
  now : Instant := 0
  runs : RunId → Option OptimizationRun := fun _ => none
  snapshots : SnapshotId → Option Snapshot := fun _ => none
  invocations : List AIInvocation := []
  artifacts : List DiagnosisArtifactRead := []
  returned : List (RunId × DiagnosisArtifactRead) := []

namespace Store

/-- `uuid4()`: ids that no row has. -/
def freshInvocationId (s : Store) : Nat := s.invocations.foldr (fun v n => max (v.id + 1) n) 0

def freshArtifactId (s : Store) : Nat := s.artifacts.foldr (fun a n => max (a.diagnosisId + 1) n) 0

def artifactForRun (s : Store) (r : RunId) : Option DiagnosisArtifactRead :=
  s.artifacts.find? (·.optimizationRunId = r)

def artifactById (s : Store) (id : Nat) : Option DiagnosisArtifactRead :=
  s.artifacts.find? (·.diagnosisId = id)

/-- The invocations of a run's diagnosis so far, and one. -/
def nextAttempt (s : Store) (r : RunId) : Nat :=
  s.invocations.countP (fun v => v.optimizationRunId = r ∧ v.stage = "DIAGNOSIS") + 1

end Store

inductive Label
  | artifactForRun
  | artifactById
  | run
  | snapshot
  | snapshotIntegrity
  | reusableInvocation
  | recordInvocation
  | persist
  | returned
  deriving DecidableEq

abbrev Proc (α : Type) := Process Label Store Error α

/-- The service; `sha256` digests the text of a canonical document, and `listed` is `ORDER BY
finding_id` under the collation of the database. -/
structure DiagnosisService where
  sha256 : Json → String
  snapshots : WorkloadSnapshotService String
  providerName : String
  chatModel : String
  listed : List DiagnosisFinding → List DiagnosisFinding
  listed_perm : ∀ findings, (listed findings).Perm findings

/-- What the provider answers. -/
abbrev Answer := Except ProviderFailure DiagnosisArtifactResult

/-- The run, its snapshot's id and what the snapshot shows. -/
structure Loaded where
  run : OptimizationRun
  snapshotId : SnapshotId
  view : DiagnosisEvidenceView

/-- What was persisted for the run before, or the id under which it is persisted now. -/
inductive Persisted
  | existing : DiagnosisArtifactRead → Persisted
  | inserted : Nat → Persisted

def sortedFindings (findings : List DiagnosisFinding) : List DiagnosisFinding :=
  findings.insertionSort (·.findingId.1 ≤ ·.findingId.1)

namespace DiagnosisService

variable (S : DiagnosisService)

def artifactFingerprint (r : RunId) (target : TargetId) (view : DiagnosisEvidenceView)
    (evidenceHash : String) (invocationId : Nat) (findings : List DiagnosisFinding) : String :=
  S.sha256 (Json.object [("schema_version", .str schemaVersion), ("run_id", .str (toString r)),
    ("snapshot_id", .str view.snapshotId), ("snapshot_fingerprint", .str view.snapshotFingerprint),
    ("target_id", .str (toString target)), ("evidence_hash", .str evidenceHash),
    ("ai_invocation_id", .str (toString invocationId)),
    ("findings", .list ((sortedFindings findings).map (·.dump)))]).canonical

/-- An artifact as it is read: its findings in the database's order. -/
def read (a : DiagnosisArtifactRead) : DiagnosisArtifactRead :=
  { a with findings := S.listed a.findings }

def artifactForRun (r : RunId) : Proc (Option DiagnosisArtifactRead) :=
  .read .artifactForRun (fun s => (s.artifactForRun r).map S.read)

def artifactById (id : Nat) : Proc (Option DiagnosisArtifactRead) :=
  .read .artifactById (fun s => (s.artifactById id).map S.read)

end DiagnosisService

def readSnapshot (s : Store) (id : SnapshotId) : Except Error (Snapshot × Store) :=
  match s.snapshots id with
  | none => .error (.snapshot (Workloads.refused .snapshotIntegrityFailure))
  | some a => .ok (a, s)

namespace DiagnosisService

variable (S : DiagnosisService)

def verifySnapshotIntegrity (s : Store) (id : SnapshotId) : Except Error (Bool × Store) :=
  (readSnapshot s id).map (fun x => (S.snapshots.verifySnapshotIntegrity x.1.row, s))

def loadValidRunSnapshot (r : RunId) (requireDiagnosing : Bool) : Proc Loaded := do
  match ← Process.read .run (fun s => s.runs r) with
  | none => throw (refused .snapshotMissing)
  | some run =>
    match run.workloadSnapshotId with
    | none => throw (refused .snapshotMissing)
    | some id =>
      .raiseIf (requireDiagnosing && run.status ≠ .diagnosing) (refused .snapshotMissing)
      let a ← Process.atomic .snapshot (readSnapshot · id)
      .raiseIf (a.row.sourceRunId ≠ r) (refused .snapshotRunMismatch)
      .raiseIf (a.row.targetId ≠ run.targetId) (refused .snapshotTargetMismatch)
      let intact ← Process.atomic .snapshotIntegrity (S.verifySnapshotIntegrity · id)
      .raiseIf (!intact) (refused .snapshotIntegrityFailure)
      return ⟨run, id, buildEvidenceView a⟩

def validateArtifact (a : DiagnosisArtifactRead) : Proc Bool := do
  let loaded ← S.loadValidRunSnapshot a.optimizationRunId false
  .raiseIf (a.workloadSnapshotId ≠ loaded.snapshotId ∨ a.targetId ≠ loaded.run.targetId ∨
    a.sourceSnapshotFingerprint ≠ loaded.view.snapshotFingerprint)
    (refused .diagnosisIntegrityFailure)
  match validateOutput ⟨a.findings⟩ loaded.view with
  | .error code => throw (refused code)
  | .ok () =>
    .raiseIf (S.artifactFingerprint a.optimizationRunId loaded.run.targetId loaded.view
      a.deterministicEvidenceHash a.aiInvocationId a.findings ≠ a.artifactFingerprint)
      (refused .diagnosisIntegrityFailure)
    return true

def verifyDiagnosisIntegrity (id : Nat) : Proc Bool := do
  match ← S.artifactById id with
  | none => throw (refused .diagnosisIntegrityFailure)
  | some a => S.validateArtifact a

/-- A row of `ai_invocations` for this attempt of the run's diagnosis. -/
def invocation (r : RunId) (loaded : Loaded) (s : Store) : AIInvocation where
  id := s.freshInvocationId
  createdAt := s.now
  optimizationRunId := r
  stage := "DIAGNOSIS"
  provider := S.providerName
  model := S.chatModel
  promptVersion := promptVersion
  schemaVersion := schemaVersion
  workloadSnapshotId := loaded.snapshotId
  inputHash := S.sha256 loaded.view.canonicalJson
  sanitizedInput := loaded.view.canonicalJson
  outputHash := none
  validatedOutput := none
  status := "FAILED"
  safeErrorCode := none
  attemptNumber := s.nextAttempt r

def recordSuccessfulInvocation (r : RunId) (loaded : Loaded) (output : DiagnosisArtifactResult) :
    Proc Nat :=
  .atomic .recordInvocation (fun s => .ok (s.freshInvocationId,
    { s with invocations := s.invocations ++ [{ S.invocation r loaded s with
      outputHash := some (S.sha256 output.dump.canonical)
      validatedOutput := some output.dump
      status := "SUCCEEDED" }] }))

def recordFailedInvocation (r : RunId) (loaded : Loaded) (code : DiagnosisFailureCode) :
    Proc PUnit :=
  .modify .recordInvocation (fun s =>
    { s with invocations := s.invocations ++ [{ S.invocation r loaded s with
      safeErrorCode := some code.value }] })

/-- The earliest invocation that succeeded on this input. -/
def reusable (r : RunId) (snapshotId : SnapshotId) (inputHash : String) (s : Store) :
    Option AIInvocation :=
  ((s.invocations.filter (fun v => v.optimizationRunId = r ∧ v.stage = "DIAGNOSIS" ∧
    v.workloadSnapshotId = snapshotId ∧ v.inputHash = inputHash ∧ v.promptVersion = promptVersion ∧
    v.schemaVersion = schemaVersion ∧ v.status = "SUCCEEDED")).insertionSort (fun v w =>
      v.createdAt < w.createdAt ∨ v.createdAt = w.createdAt ∧ v.id ≤ w.id)).head?

def reusableInvocation (r : RunId) (snapshotId : SnapshotId) (inputHash : String) :
    Proc (Option (Nat × DiagnosisArtifactResult)) := do
  match ← Process.read .reusableInvocation (reusable r snapshotId inputHash) with
  | none => return none
  | some v =>
    match v.validatedOutput with
    | none => return none
    | some json =>
      match DiagnosisArtifactResult.validate json with
      | none => throw (refused .diagnosisSchemaInvalid)
      | some output => return some (v.id, output)

/-- The provider's answer, or the error that it comes to; whichever it is, it is recorded. -/
def invoke (r : RunId) (loaded : Loaded) (answer : Answer) :
    Proc (Nat × DiagnosisArtifactResult) :=
  match answer with
  | .error (.provider code retryable) => do
    S.recordFailedInvocation r loaded (.provider code)
    throw (.diagnosis (.provider code) retryable)
  | .error .other => do
    S.recordFailedInvocation r loaded (.provider .unavailable)
    throw (.diagnosis (.provider .unavailable) true)
  | .ok output =>
    match validateOutput output loaded.view with
    | .error code => do
      S.recordFailedInvocation r loaded code
      throw (refused code)
    | .ok () => do
      let id ← S.recordSuccessfulInvocation r loaded output
      return (id, output)

/-- The artifact that is inserted. -/
def artifact (r : RunId) (loaded : Loaded) (invocationId : Nat) (output : DiagnosisArtifactResult)
    (id : Nat) : DiagnosisArtifactRead where
  diagnosisId := id
  optimizationRunId := r
  workloadSnapshotId := loaded.snapshotId
  targetId := loaded.run.targetId
  aiInvocationId := invocationId
  schemaVersion := schemaVersion
  sourceSnapshotFingerprint := loaded.view.snapshotFingerprint
  deterministicEvidenceHash := S.sha256 loaded.view.canonicalJson
  artifactFingerprint := S.artifactFingerprint r loaded.run.targetId loaded.view
    (S.sha256 loaded.view.canonicalJson) invocationId (sortedFindings output.findings)
  findings := sortedFindings output.findings

/-- The transaction of `_persist_or_reuse`, under the lock of the run's row.  A statement that violates
a `UNIQUE` constraint fails the transaction, and every statement after it. -/
def persist (r : RunId) (loaded : Loaded) (invocationId : Nat) (output : DiagnosisArtifactResult)
    (s : Store) : Except Error (Persisted × Store) :=
  match s.runs r with
  | none => .error .noResultFound
  | some locked =>
    match s.artifactForRun r with
    | some existing => .ok (.existing (S.read existing), s)
    | none =>
      let a := S.artifact r loaded invocationId output s.freshArtifactId
      if locked.status ≠ .diagnosing then .error (refused .snapshotMissing)
      else if s.artifacts.any (·.artifactFingerprint = a.artifactFingerprint) then
        .error (.integrity "diagnosis_artifacts_artifact_fingerprint_key")
      else if ¬ (a.findings.map (·.findingId.1)).Nodup then
        .error (.integrity "uq_diagnosis_finding_identity")
      else .ok (.inserted a.diagnosisId, { s with artifacts := s.artifacts ++ [a] })

def persistOrReuse (r : RunId) (loaded : Loaded) (invocationId : Nat)
    (output : DiagnosisArtifactResult) : Proc DiagnosisArtifactRead := do
  match ← Process.atomic .persist (S.persist r loaded invocationId output) with
  | .existing a =>
    let _ ← S.validateArtifact a
    return a
  | .inserted id =>
    match ← S.artifactById id with
    | none => throw .assertion
    | some a =>
      let _ ← S.validateArtifact a
      return a

def createForRun (r : RunId) (answer : Answer) : Proc DiagnosisArtifactRead := do
  match ← S.artifactForRun r with
  | some existing =>
    let _ ← S.validateArtifact existing
    return existing
  | none =>
    let loaded ← S.loadValidRunSnapshot r true
    let invoked ← match ← reusableInvocation r loaded.snapshotId
        (S.sha256 loaded.view.canonicalJson) with
      | none => S.invoke r loaded answer
      | some invoked => pure invoked
    S.persistOrReuse r loaded invoked.1 invoked.2

end DiagnosisService

/-- Callers, each with what the provider answers it; what a call returns is logged.  Outside of the
calls the rest of the control plane goes on. -/
def diagnosing (S : DiagnosisService) (ι : Type) :
    System Label Store Error ι (RunId × Answer) Store where
  call _ k := do
    let a ← S.createForRun k.1 k.2
    .modify .returned (fun s => { s with returned := s.returned ++ [(k.1, a)] })
  crash _ s := s
  env t _ := t

/-- Runs keep their target and, once they have one, their snapshot; snapshots, invocations and
artifacts are immutable, and diagnoses are made by this service only. -/
structure Outside (s t : Store) : Prop where
  runs : ∀ r run, s.runs r = some run → ∃ run', t.runs r = some run' ∧
    run'.targetId = run.targetId ∧
      ∀ id, run.workloadSnapshotId = some id → run'.workloadSnapshotId = some id
  snapshots : ∀ id a, s.snapshots id = some a → t.snapshots id = some a
  invocations : ∃ more, t.invocations = s.invocations ++ more ∧
    ∀ v ∈ more, v.stage ≠ "DIAGNOSIS"
  artifacts : t.artifacts = s.artifacts
  returned : t.returned = s.returned

end NoSQLOptimizer.Diagnosis
