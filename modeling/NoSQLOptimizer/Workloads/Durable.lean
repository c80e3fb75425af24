import Mathlib
import NoSQLOptimizer.ControlPlane.Tables
import NoSQLOptimizer.Encoding.Json

namespace NoSQLOptimizer.Workloads

open ControlPlane Encoding

inductive SnapshotFailureCode
  | noCompletedTelemetry
  | staleTelemetry
  | crossTargetTelemetry
  | snapshotTargetMismatch
  | snapshotRunMismatch
  | snapshotIntegrityFailure
  | malformedSourceEvidence
  | emptyWorkload
  deriving DecidableEq

/-- `WorkloadSnapshotError`, and the error of a `UNIQUE` constraint. -/
inductive Error
  | workloadSnapshot : SnapshotFailureCode → Bool → Error
  | integrity : String → Error
  deriving DecidableEq

abbrev Result := Except Error

def require (holds : Bool) (e : Error) : Result Unit := if holds then .ok () else .error e

def refused (code : SnapshotFailureCode) : Error := .workloadSnapshot code false

def retryable (code : SnapshotFailureCode) : Error := .workloadSnapshot code true

abbrev WindowId := Nat
abbrev ShapeId := Nat
abbrev ObservationId := Nat

structure TelemetryWindow where
  id : WindowId
  targetId : TargetId
  startedAt : Instant
  endedAt : Instant
  source : String
  status : String
  deriving DecidableEq

/-- A query shape, with the name of its namespace. -/
structure QueryShape where
  id : ShapeId
  shapeHash : String
  operation : String
  namespaceName : String
  deriving DecidableEq

/-- A row of `metric_observations`, with the shape that it is joined to. -/
structure MetricObservation where
  id : ObservationId
  telemetryWindowId : WindowId
  queryShape : Option QueryShape
  metricName : String
  metricValue : ℚ
  deriving DecidableEq

/-- The telemetry tables, each under its primary key. -/
structure Telemetry where
  windows : List TelemetryWindow := []
  observations : List MetricObservation := []
  windows_nodup : (windows.map (·.id)).Nodup := by decide
  observations_nodup : (observations.map (·.id)).Nodup := by decide

namespace Telemetry

def completed (t : Telemetry) (target : TargetId) : List TelemetryWindow :=
  t.windows.filter (fun w => w.targetId = target ∧ w.status = "COMPLETED")

/-- The observations of these windows. -/
def observed (t : Telemetry) (windows : List TelemetryWindow) : List MetricObservation :=
  t.observations.filter (fun o => o.telemetryWindowId ∈ windows.map (·.id))

end Telemetry

/-- What is summed up of one query shape. -/
structure ShapeTotals where
  shape : QueryShape
  operationCount : Option Int := none
  success : Option Int := none
  failure : Option Int := none
  timeout : Option Int := none
  execution : Option ℚ := none
  manual : Bool := false
  deriving DecidableEq

/-- `int(value)`. -/
def truncate (value : ℚ) : Int := value.num.tdiv value.den

def add {M : Type} [Add M] [Zero M] (total : Option M) (value : M) : Option M :=
  some (total.getD 0 + value)

def ShapeTotals.observe (d : ShapeTotals) (name : String) (value : ℚ) : ShapeTotals :=
  if name = "operation_count" then
    { d with operationCount := add d.operationCount (truncate value) }
  else if name = "successful_operation_count" then
    { d with success := add d.success (truncate value) }
  else if name = "failure_count" then { d with failure := add d.failure (truncate value) }
  else if name = "timeout_count" then { d with timeout := add d.timeout (truncate value) }
  else if name = "aggregate_execution_time_ms" then
    { d with execution := add d.execution value }
  else if name = "manually_critical" then { d with manual := d.manual || decide (0 < value) }
  else d

/-- `grouped.setdefault(..)`, with the observation added to it. -/
def groupShape (shape : QueryShape) (name : String) (value : ℚ) : List ShapeTotals → List ShapeTotals
  | [] => [ShapeTotals.observe { shape := shape } name value]
  | d :: grouped =>
    if d.shape.id = shape.id then d.observe name value :: grouped
    else d :: groupShape shape name value grouped

def groupObservation (grouped : List ShapeTotals) (o : MetricObservation) : List ShapeTotals :=
  match o.queryShape with
  | none => grouped
  | some shape => groupShape shape o.metricName o.metricValue grouped

structure ShapeEvidence where
  queryShapeId : ShapeId
  queryShapeHash : String
  operation : String
  namespaceName : String
  observedOperationCount : Int
  successfulOperationCount : Option Int
  failureCount : Option Int
  timeoutCount : Option Int
  aggregateExecutionTimeMs : Option ℚ
  workloadOperationShare : ℚ
  executionTimeShare : Option ℚ
  manuallyCritical : Bool
  protectedManualCritical : Bool
  protectedOperationShare : Bool
  protectedExecutionTimeShare : Bool
  baseProtected : Bool
  provider : String
  deriving DecidableEq

structure MetricEvidence where
  sourceMetricObservationId : ObservationId
  scope : String
  metricName : String
  metricValue : ℚ
  deriving DecidableEq

def freezeMetric (o : MetricObservation) : MetricEvidence where
  sourceMetricObservationId := o.id
  scope := if o.queryShape.isSome then "QUERY_SHAPE" else "GLOBAL"
  metricName := o.metricName
  metricValue := o.metricValue

/-- `sorted({..})`. -/
def sortedSet (names : List String) : List String := names.dedup.insertionSort (· ≤ ·)

section Documents

def optional {α : Type} (encode : α → Json) : Option α → Json
  | none => .null
  | some a => encode a

def number (value : ℚ) : Json := .float (toString value)

def strings (names : List String) : Json := .list (names.map .str)

def ShapeEvidence.document (e : ShapeEvidence) : Json :=
  .object [("query_shape_id", .int e.queryShapeId), ("query_shape_hash", .str e.queryShapeHash),
    ("operation", .str e.operation), ("namespace", .str e.namespaceName),
    ("observed_operation_count", .int e.observedOperationCount),
    ("successful_operation_count", optional .int e.successfulOperationCount),
    ("failure_count", optional .int e.failureCount),
    ("timeout_count", optional .int e.timeoutCount),
    ("aggregate_execution_time_ms", optional number e.aggregateExecutionTimeMs),
    ("workload_operation_share", number e.workloadOperationShare),
    ("execution_time_share", optional number e.executionTimeShare),
    ("manually_critical", .bool e.manuallyCritical),
    ("protected_manual_critical", .bool e.protectedManualCritical),
    ("protected_operation_share", .bool e.protectedOperationShare),
    ("protected_execution_time_share", .bool e.protectedExecutionTimeShare),
    ("base_protected", .bool e.baseProtected), ("provider", .str e.provider)]

def MetricEvidence.document (m : MetricEvidence) : Json :=
  .object [("source_metric_observation_id", .int m.sourceMetricObservationId),
    ("scope", .str m.scope), ("metric_name", .str m.metricName),
    ("metric_value", number m.metricValue)]

end Documents

/-- A row of `workload_snapshots`, with its rows of the three tables below it. -/
structure WorkloadSnapshot (δ : Type) where
  id : SnapshotId
  targetId : TargetId
  telemetryWindowId : WindowId
  sourceRunId : RunId
  observedFrom : Instant
  observedUntil : Instant
  anchorAt : Instant
  summary : Json
  completeness : Json
  fingerprint : δ
  sourceWindows : List WindowId
  queryShapes : List ShapeEvidence
  metrics : List MetricEvidence

section Documents

/-- What is hashed; the sources, shapes and metrics in the order they are given in. -/
def digestInput (target : TargetId) (run : RunId) (observedFrom observedUntil anchor : Instant)
    (summary completeness : Json) (sources : List WindowId) (shapes : List ShapeEvidence)
    (metrics : List MetricEvidence) : Json :=
  .object [("target_id", .int target), ("source_run_id", .int run),
    ("observed_from", .int observedFrom), ("observed_until", .int observedUntil),
    ("anchor_at", .int anchor), ("summary", summary), ("completeness", completeness),
    ("sources", .list (sources.map (.int ·))), ("shapes", .list (shapes.map (·.document))),
    ("metrics", .list (metrics.map (·.document)))]

end Documents

/-- The control plane's tables, as far as snapshots concern them, and the clock. -/
structure Database (δ : Type) where
  now : Instant := 0
  runs : RunId → Option OptimizationRun := fun _ => none
  telemetry : Telemetry := {}
  snapshots : List (WorkloadSnapshot δ) := []

namespace Database

variable {δ : Type}

def snapshot (s : Database δ) (id : SnapshotId) : Option (WorkloadSnapshot δ) :=
  s.snapshots.find? (·.id = id)

/-- The column `source_metric_observation_id`, which is `UNIQUE`. -/
def frozen (s : Database δ) : List ObservationId :=
  s.snapshots.flatMap (fun snapshot => snapshot.metrics.map (·.sourceMetricObservationId))

/-- `uuid4()`: an id that no snapshot has. -/
def freshId (s : Database δ) : SnapshotId := s.snapshots.foldr (fun a n => max (a.id + 1) n) 0

end Database

/-- The service's settings; `sha256` digests the text of a canonical document. -/
structure WorkloadSnapshotService (δ : Type) where
  lookbackSeconds : Int := 900
  maxSourceAgeSeconds : Int := 300
  pseudonymizeIdentifier : String → String := id
  sha256 : Json → δ

structure Material (δ : Type) where
  summary : Json
  completeness : Json
  shapes : List ShapeEvidence
  metrics : List MetricEvidence
  fingerprint : δ

/-- The rows to insert. -/
def Material.snapshot {δ : Type} (material : Material δ) (id : SnapshotId) (r : RunId)
    (target : TargetId) (windows : List TelemetryWindow) (anchor : Instant) : WorkloadSnapshot δ where
  id := id
  targetId := target
  telemetryWindowId := (windows.getLast?.map (·.id)).getD 0
  sourceRunId := r
  observedFrom := (windows.head?.map (·.startedAt)).getD anchor
  observedUntil := anchor
  anchorAt := anchor
  summary := material.summary
  completeness := material.completeness
  fingerprint := material.fingerprint
  sourceWindows := windows.map (·.id)
  queryShapes := material.shapes
  metrics := material.metrics

structure WorkloadSnapshotResult (δ : Type) where
  snapshotId : SnapshotId
  reused : Bool
  fingerprint : δ

def seconds (n : Int) : Instant := n * 1000000

def newest (windows : List TelemetryWindow) : Option TelemetryWindow :=
  (windows.insertionSort (fun a b => b.endedAt < a.endedAt ∨ b.endedAt = a.endedAt ∧ b.id ≤ a.id)).head?

def ordered (windows : List TelemetryWindow) : List TelemetryWindow :=
  windows.insertionSort (fun a b => a.startedAt < b.startedAt ∨ a.startedAt = b.startedAt ∧ a.id ≤ b.id)

def missingMetricFamilies (available : List String) : List String :=
  ["successful_operation_count", "failure_count", "timeout_count",
    "aggregate_execution_time_ms"].filter (· ∉ available)

def shapeEvidence (providers : List String) (pseudonymize : String → String) (total : Int)
    (totalExecution : ℚ) (d : ShapeTotals) : ShapeEvidence :=
  let operationShare : ℚ := d.operationCount.getD 0 / total
  let executionShare := if 0 < totalExecution then d.execution.map (· / totalExecution) else none
  let byOperation := decide (1 / 100 ≤ operationShare)
  let byExecution := executionShare.any (1 / 100 ≤ ·)
  { queryShapeId := d.shape.id
    queryShapeHash := d.shape.shapeHash
    operation := d.shape.operation
    namespaceName := pseudonymize d.shape.namespaceName
    observedOperationCount := d.operationCount.getD 0
    successfulOperationCount := d.success
    failureCount := d.failure
    timeoutCount := d.timeout
    aggregateExecutionTimeMs := d.execution
    workloadOperationShare := operationShare
    executionTimeShare := executionShare
    manuallyCritical := d.manual
    protectedManualCritical := d.manual
    protectedOperationShare := byOperation
    protectedExecutionTimeShare := byExecution
    baseProtected := d.manual || byOperation || byExecution
    provider := ",".intercalate providers }

namespace WorkloadSnapshotService

variable {δ : Type} (S : WorkloadSnapshotService δ)

def lockedRun (s : Database δ) (run : RunId) : Result OptimizationRun :=
  match s.runs run with
  | some row => .ok row
  | none => .error (refused .malformedSourceEvidence)

/-- The windows that the target's newest completed one looks back on, and where it ended. -/
def selectSourceWindows (s : Database δ) (target : TargetId) :
    Result (List TelemetryWindow × Instant) := do
  let completed := s.telemetry.completed target
  match newest completed with
  | none => .error (retryable .noCompletedTelemetry)
  | some window =>
    let anchor := window.endedAt
    require (s.now - anchor ≤ seconds S.maxSourceAgeSeconds) (retryable .staleTelemetry)
    let rows := ordered (completed.filter (fun w =>
      anchor - seconds S.lookbackSeconds ≤ w.startedAt ∧ w.endedAt ≤ anchor))
    require (rows ≠ []) (retryable .noCompletedTelemetry)
    return (rows, anchor)

def buildMaterial (s : Database δ) (windows : List TelemetryWindow) (target : TargetId)
    (anchor : Instant) (run : RunId) : Result (Material δ) := do
  let rows := s.telemetry.observed windows
  require (windows ≠ [] ∧ windows.all (·.targetId = target)) (refused .crossTargetTelemetry)
  let counted := (rows.foldl groupObservation []).filter (·.operationCount.isSome)
  let providers := sortedSet (windows.map (·.source))
  let total := (counted.map (·.operationCount.getD 0)).sum
  require (0 < total) (refused .emptyWorkload)
  let totalExecution := (counted.map (·.execution.getD 0)).sum
  let shapes := (counted.insertionSort (·.shape.shapeHash ≤ ·.shape.shapeHash)).map
    (shapeEvidence providers S.pseudonymizeIdentifier total totalExecution)
  let metrics := (rows.map freezeMetric).insertionSort
    (·.sourceMetricObservationId ≤ ·.sourceMetricObservationId)
  let available := sortedSet (rows.map (·.metricName))
  let completeness := .object [("query_shapes_available", .bool (shapes ≠ [])),
    ("workload_counts_available", .bool (counted ≠ [])),
    ("available_metric_keys", strings available),
    ("missing_metric_families", strings (missingMetricFamilies available)),
    ("providers", strings providers),
    ("production_autonomy_eligible", .bool (providers ≠ ["CURRENT_OP"]))]
  let summary := .object [("source_provider", strings providers),
    ("source_window_count", .int windows.length), ("query_shape_count", .int shapes.length),
    ("operation_count", .int total),
    ("execution_time_ms", if totalExecution = 0 then .null else number totalExecution)]
  let document := digestInput target run ((windows.head?.map (·.startedAt)).getD anchor) anchor
    anchor summary completeness ((windows.map (·.id)).insertionSort (· ≤ ·)) shapes metrics
  return ⟨summary, completeness, shapes, metrics, S.sha256 document.canonical⟩

def verifySnapshotIntegrity [DecidableEq δ] (snapshot : WorkloadSnapshot δ) : Bool :=
  let document := digestInput snapshot.targetId snapshot.sourceRunId snapshot.observedFrom
    snapshot.observedUntil snapshot.anchorAt snapshot.summary snapshot.completeness
    (snapshot.sourceWindows.insertionSort (· ≤ ·))
    (snapshot.queryShapes.insertionSort (·.queryShapeHash ≤ ·.queryShapeHash))
    (snapshot.metrics.insertionSort (·.sourceMetricObservationId ≤ ·.sourceMetricObservationId))
  S.sha256 document.canonical = snapshot.fingerprint

def validateExisting [DecidableEq δ] (r : RunId) (run : OptimizationRun)
    (snapshot : WorkloadSnapshot δ) : Result Unit := do
  require (snapshot.sourceRunId = r) (refused .snapshotRunMismatch)
  require (snapshot.targetId = run.targetId) (refused .snapshotTargetMismatch)
  require (snapshot.sourceWindows ≠ [] ∧ S.verifySnapshotIntegrity snapshot)
    (refused .snapshotIntegrityFailure)

/-- The inserts of one snapshot, table by table, each under its `UNIQUE` constraints. -/
def insertSnapshot [DecidableEq δ] (snapshot : WorkloadSnapshot δ) (s : Database δ) :
    Result (Database δ) := do
  require (s.snapshots.all (fun a =>
    a.fingerprint ≠ snapshot.fingerprint ∧ a.sourceRunId ≠ snapshot.sourceRunId))
    (.integrity "workload_snapshots")
  require snapshot.sourceWindows.Nodup (.integrity "uq_snapshot_source_window")
  require (snapshot.queryShapes.map (·.queryShapeId)).Nodup (.integrity "uq_snapshot_query_shape")
  let sources := snapshot.metrics.map (·.sourceMetricObservationId)
  require (sources.Nodup ∧ sources.all (· ∉ s.frozen))
    (.integrity "workload_snapshot_metrics_source_metric_observation_id_key")
  return { s with snapshots := s.snapshots ++ [snapshot] }

def attach (s : Database δ) (r : RunId) (id : SnapshotId) : Database δ :=
  let attached := (s.runs r).map (fun run =>
    { run with workloadSnapshotId := run.workloadSnapshotId.or id })
  { s with runs := Function.update s.runs r attached }

def materialize [DecidableEq δ] (r : RunId) (run : OptimizationRun) (s : Database δ) :
    Result (WorkloadSnapshotResult δ × Database δ) := do
  require (run.status = .snapshotting) (refused .malformedSourceEvidence)
  let (windows, anchor) ← S.selectSourceWindows s run.targetId
  let material ← S.buildMaterial s windows run.targetId anchor r
  let snapshot := material.snapshot s.freshId r run.targetId windows anchor
  let t ← insertSnapshot snapshot s
  return (⟨snapshot.id, false, material.fingerprint⟩, attach t r snapshot.id)

/-- The snapshot that the run has already. -/
def reuse [DecidableEq δ] (r : RunId) (run : OptimizationRun) (attached : SnapshotId)
    (s : Database δ) : Result (WorkloadSnapshotResult δ × Database δ) :=
  match s.snapshot attached with
  | none => .error (refused .snapshotIntegrityFailure)
  | some snapshot => do
    S.validateExisting r run snapshot
    return (⟨snapshot.id, true, snapshot.fingerprint⟩, s)

def createForRun [DecidableEq δ] (r : RunId) (s : Database δ) :
    Result (WorkloadSnapshotResult δ × Database δ) := do
  let run ← lockedRun s r
  match run.workloadSnapshotId with
  | none => S.materialize r run s
  | some attached => S.reuse r run attached s

end WorkloadSnapshotService

end NoSQLOptimizer.Workloads
