import NoSQLOptimizer.Admission.Models
import NoSQLOptimizer.Benchmarks.Commerce
import NoSQLOptimizer.Encoding.Lines
import NoSQLOptimizer.Files.Machine

namespace NoSQLOptimizer.Benchmarks

open Encoding Files

inductive BenchmarkArm
  | baseline
  | candidate
  deriving DecidableEq

def BenchmarkArm.value : BenchmarkArm → String
  | baseline => "baseline"
  | candidate => "candidate"

inductive BenchmarkArmOrder
  | ab
  | ba
  deriving DecidableEq

def BenchmarkArmOrder.value : BenchmarkArmOrder → String
  | ab => "AB"
  | ba => "BA"

/-- A float, as the text that reads back as it. -/
structure FloatText where
  text : String
  isFloat : IsFloat text

namespace FloatText

def json (x : FloatText) : Json := .float x.text

/-- `null` for `None`. -/
def optional (x : Option FloatText) : Json := (x.map json).getD .null

theorem floats_optional (x : Option FloatText) : (optional x).Floats := by
  cases x with
  | none => trivial
  | some x => exact x.isFloat

end FloatText

structure CounterDeltas where
  cpuUtilization : FloatText
  memoryUtilization : FloatText
  diskUtilization : FloatText
  diskIoBytesPerOp : FloatText
  networkBytesPerOp : FloatText

structure RealBenchmarkMeasurement where
  successfulOperations : ℕ
  errorCount : ℕ
  timeoutCount : ℕ
  elapsedSeconds : FloatText
  throughputSuccessfulOpsPerSecond : FloatText
  p50LatencyMs : Option FloatText
  p95LatencyMs : Option FloatText
  p99LatencyMs : Option FloatText
  counterDeltas : CounterDeltas

structure Environment where
  mongodbVersion : String
  replicaSet : String

structure RealBenchmarkRunRecord where
  pairId : String
  arm : BenchmarkArm
  armOrder : BenchmarkArmOrder
  seed : Int
  generatorVersion : String
  datasetFingerprint : String
  initialDatasetFingerprint : String
  environment : Environment
  measurement : RealBenchmarkMeasurement
  resetImplementation : String := "full"
  resetFingerprint : Option String := none

def CounterDeltas.asdict (c : CounterDeltas) : Json := .object
  [("cpu_utilization", c.cpuUtilization.json),
    ("memory_utilization", c.memoryUtilization.json),
    ("disk_utilization", c.diskUtilization.json),
    ("disk_io_bytes_per_op", c.diskIoBytesPerOp.json),
    ("network_bytes_per_op", c.networkBytesPerOp.json)]

def RealBenchmarkMeasurement.asdict (m : RealBenchmarkMeasurement) : Json := .object
  [("successful_operations", .int m.successfulOperations),
    ("error_count", .int m.errorCount),
    ("timeout_count", .int m.timeoutCount),
    ("elapsed_seconds", m.elapsedSeconds.json),
    ("throughput_successful_ops_per_second", m.throughputSuccessfulOpsPerSecond.json),
    ("p50_latency_ms", FloatText.optional m.p50LatencyMs),
    ("p95_latency_ms", FloatText.optional m.p95LatencyMs),
    ("p99_latency_ms", FloatText.optional m.p99LatencyMs),
    ("counter_deltas", m.counterDeltas.asdict)]

def Environment.asdict (e : Environment) : Json := .object
  [("mongodb_version", .str e.mongodbVersion), ("replica_set", .str e.replicaSet)]

def RealBenchmarkRunRecord.asdict (r : RealBenchmarkRunRecord) : Json := .object
  [("pair_id", .str r.pairId),
    ("arm", .str r.arm.value),
    ("arm_order", .str r.armOrder.value),
    ("seed", .int r.seed),
    ("generator_version", .str r.generatorVersion),
    ("dataset_fingerprint", .str r.datasetFingerprint),
    ("initial_dataset_fingerprint", .str r.initialDatasetFingerprint),
    ("environment", r.environment.asdict),
    ("measurement", r.measurement.asdict),
    ("reset_implementation", .str r.resetImplementation),
    ("reset_fingerprint", (r.resetFingerprint.map Json.str).getD .null)]

/-- What is written of a record: its fields in the order of their names. -/
def RealBenchmarkRunRecord.line (r : RealBenchmarkRunRecord) : Json := r.asdict.canonical

inductive PublicationError
  | runtimeError (text : String)
  | valueError (text : String)
  | jsonDecodeError
  | attributeError
  | typeError
  | statistics (e : Admission.PyError)
  deriving DecidableEq

/-- `record.get(name)`. -/
def getItem (name : String) : Json → Except PublicationError (Option Json)
  | .obj r => .ok (r.lookup name)
  | _ => .error .attributeError

/-- `record.get("measurement", {}).get("p99_latency_ms")`. -/
def p99Value (record : Json) : Except PublicationError (Option Json) := do
  let measurement ← getItem "measurement" record
  let value ← getItem "p99_latency_ms" (measurement.getD (.object []))
  return value.filter (· ≠ .null)

section

variable {F : Type} (float : String → Option F)

/-- Python's `float`, of a text. -/
def floatOfText (text : String) : Except PublicationError F :=
  (float text).elim (.error (.valueError ("could not convert string to float: '" ++ text ++ "'")))
    .ok

/-- Python's `float`, of what a JSON text has. -/
def floatOf : Json → Except PublicationError F
  | .float t => floatOfText float t
  | .str t => floatOfText float t
  | .int n => floatOfText float n.repr
  | .bool b => floatOfText float (if b then "1" else "0")
  | _ => .error .typeError

/-- One record of the evidence of a pair. -/
def takeRecord (path : String) (arms : Option F × Option F) (record : Json) :
    Except PublicationError (Option F × Option F) := do
  match ← p99Value record with
  | none => throw (.runtimeError (path ++ " recorded an arm with no successful operations"))
  | some value =>
    let arm ← getItem "arm" record
    if arm = some (.str "baseline") then return (some (← floatOf float value), arms.2)
    else if arm = some (.str "candidate") then return (arms.1, some (← floatOf float value))
    else return arms

def takeLine (path : String) (arms : Option F × Option F) (line : List Char) :
    Except PublicationError (Option F × Option F) :=
  if isBlank line then .ok arms
  else match loads line with
  | none => .error .jsonDecodeError
  | some record => takeRecord float path arms record

def bothArms (path : String) : Option F × Option F → Except PublicationError (F × F)
  | (some baseline, some candidate) => .ok (baseline, candidate)
  | _ => .error (.runtimeError (path ++ " is missing a baseline or candidate arm"))

/-- `_pair_p99`, of the text of the file. -/
def pairP99 (path : String) (text : Text) : Except PublicationError (F × F) := do
  bothArms path (← (splitlines (universalNewlines false text)).foldlM (takeLine float path)
    (none, none))

end

theorem FloatText.floats_json (x : FloatText) : x.json.Floats := x.isFloat

theorem CounterDeltas.floats_asdict (c : CounterDeltas) : c.asdict.Floats := by
  apply Json.floats_object
  simp only [List.forall_mem_cons, List.not_mem_nil, false_implies, implies_true, and_true,
    FloatText.floats_json]

theorem RealBenchmarkMeasurement.floats_asdict (m : RealBenchmarkMeasurement) :
    m.asdict.Floats := by
  apply Json.floats_object
  simp only [List.forall_mem_cons, List.not_mem_nil, false_implies, implies_true, and_true,
    FloatText.floats_json, FloatText.floats_optional, CounterDeltas.floats_asdict, Json.Floats]

theorem Environment.floats_asdict (e : Environment) : e.asdict.Floats := by
  apply Json.floats_object
  simp only [List.forall_mem_cons, List.not_mem_nil, false_implies, implies_true, and_true,
    Json.Floats]

theorem RealBenchmarkRunRecord.recorded (r : RealBenchmarkRunRecord) : Recorded r.line := by
  have hreset : ((r.resetFingerprint.map Json.str).getD .null).Floats := by
    cases r.resetFingerprint <;> trivial
  apply Recorded.of_object
  simp only [List.forall_mem_cons, List.not_mem_nil, false_implies, implies_true, and_true,
    RealBenchmarkMeasurement.floats_asdict, Environment.floats_asdict, hreset, Json.Floats]

theorem getItem_canonical (name : String) (fs : List (String × Json)) :
    getItem name (Json.object fs).canonical =
      .ok (((Fields.ofList fs).lookup name).map Json.canonical) := by
  rw [Json.canonical_object, getItem, Fields.lookup_canonical]

theorem lookup_ofList_cons (name : String) (f : String × Json) (fs : List (String × Json)) :
    (Fields.ofList (f :: fs)).lookup name =
      if f.1 = name then some f.2 else (Fields.ofList fs).lookup name := by
  rw [Fields.ofList, Fields.lookup]

section

variable {F : Type} (float : String → Option F) (path : String)

/-- The p99 latency of a record. -/
def RealBenchmarkRunRecord.p99 (r : RealBenchmarkRunRecord) : Except PublicationError F :=
  match r.measurement.p99LatencyMs with
  | none => .error (.runtimeError (path ++ " recorded an arm with no successful operations"))
  | some x => floatOf float x.json

/-- The arms with the value of one of them. -/
def putArm (arms : Option F × Option F) (value : F) : BenchmarkArm → Option F × Option F
  | .baseline => (some value, arms.2)
  | .candidate => (arms.1, some value)

theorem p99Value_line (r : RealBenchmarkRunRecord) :
    p99Value r.line = .ok (r.measurement.p99LatencyMs.map FloatText.json) := by
  have hmeasurement : getItem "measurement" r.line =
      .ok (some r.measurement.asdict.canonical) := by
    rw [RealBenchmarkRunRecord.line, RealBenchmarkRunRecord.asdict, getItem_canonical]
    simp only [lookup_ofList_cons, String.reduceEq, if_false, if_true, Option.map_some]
  have hp99 : getItem "p99_latency_ms" r.measurement.asdict.canonical =
      .ok (some (FloatText.optional r.measurement.p99LatencyMs)) := by
    rw [RealBenchmarkMeasurement.asdict, getItem_canonical]
    simp only [lookup_ofList_cons, String.reduceEq, if_false, if_true, Option.map_some]
    cases r.measurement.p99LatencyMs <;> rfl
  simp only [p99Value, hmeasurement, bind, Except.bind, Option.getD_some, hp99]
  cases r.measurement.p99LatencyMs with
  | none => rfl
  | some x => simp [FloatText.optional, FloatText.json, pure, Except.pure]

theorem takeRecord_line (arms : Option F × Option F) (r : RealBenchmarkRunRecord) :
    takeRecord float path arms r.line = (r.p99 float path).map (putArm arms · r.arm) := by
  have harm : getItem "arm" r.line = .ok (some (.str r.arm.value)) := by
    rw [RealBenchmarkRunRecord.line, RealBenchmarkRunRecord.asdict, getItem_canonical]
    simp only [lookup_ofList_cons, String.reduceEq, if_false, if_true, Option.map_some]
    rfl
  unfold takeRecord RealBenchmarkRunRecord.p99
  rw [p99Value_line]
  cases r.measurement.p99LatencyMs with
  | none => rfl
  | some x =>
    simp only [bind, Except.bind, Option.map_some, harm]
    cases r.arm with
    | baseline =>
      rw [if_pos (by rfl)]
      cases floatOf float x.json <;> rfl
    | candidate =>
      rw [if_neg (by simp [BenchmarkArm.value]), if_pos (by rfl)]
      cases floatOf float x.json <;> rfl

/-- Line by line is record by record. -/
theorem foldlM_takeLine {lines : List (List Char)} (arms : Option F × Option F) :
    (∀ js, (lines.filter (fun line => !isBlank line)).mapM loads = some js →
      lines.foldlM (takeLine float path) arms = js.foldlM (takeRecord float path) arms) ∧
    ((lines.filter (fun line => !isBlank line)).mapM loads = none →
      ∃ e, lines.foldlM (takeLine float path) arms = .error e) := by
  induction lines generalizing arms with
  | nil =>
    refine ⟨fun js hjs => ?_, fun hnone => ?_⟩
    · cases hjs
      rfl
    · cases hnone
  | cons line lines ih =>
    rw [List.foldlM_cons]
    cases hblank : isBlank line with
    | true =>
      rw [List.filter_cons_of_neg (by rw [hblank]; decide), takeLine, hblank, if_pos rfl]
      exact ih arms
    | false =>
      rw [List.filter_cons_of_pos (by rw [hblank]; rfl), takeLine, hblank,
        if_neg Bool.false_ne_true, List.mapM_cons]
      cases hline : loads line with
      | none => exact ⟨fun js hjs => (by cases hjs), fun _ => ⟨_, rfl⟩⟩
      | some record =>
        rw [Option.bind_eq_bind, Option.bind_some]
        cases htake : takeRecord float path arms record with
        | error e =>
          refine ⟨fun js hjs => ?_, fun _ => ⟨e, by simp only [htake]; rfl⟩⟩
          obtain ⟨rest, hrest, hjs⟩ := Option.bind_eq_some_iff.mp hjs
          cases hjs
          simp only [List.foldlM_cons, htake]
          rfl
        | ok arms' =>
          simp only [htake]
          refine ⟨fun js hjs => ?_, fun hnone => (ih arms').2 ?_⟩
          · obtain ⟨rest, hrest, hjs⟩ := Option.bind_eq_some_iff.mp hjs
            cases hjs
            rw [List.foldlM_cons, htake]
            exact (ih arms').1 rest hrest
          · cases hrest : (lines.filter (fun line => !isBlank line)).mapM loads with
            | none => rfl
            | some rest =>
              rw [hrest] at hnone
              cases hnone

end

section

variable {F : Type} (float : String → Option F) (path : String) {b c : RealBenchmarkRunRecord}
  {text : Text}

theorem ne_return_of_start (h : text <+: jsonLines [b.line, c.line]) : ∀ d ∈ text, d ≠ '\r' := by
  intro d hd
  have hprintable (r : RealBenchmarkRunRecord) : ∀ d ∈ r.line.dumps, d ≠ '\r' := by
    rintro d hd rfl
    exact absurd (r.recorded.printable _ hd) (by decide)
  have hmem := h.subset hd
  rw [jsonLines_cons, jsonLines_cons, List.mem_append, List.mem_cons, List.mem_append,
    List.mem_cons] at hmem
  rcases hmem with hd | rfl | hd | rfl | hd
  · exact hprintable b d hd
  · decide
  · exact hprintable c d hd
  · decide
  · cases hd

theorem recorded_pair : ∀ j ∈ [b.line, c.line], Recorded j := by
  simp only [List.forall_mem_cons, b.recorded, c.recorded, List.not_mem_nil, false_implies,
    implies_true, and_true]

/-- What is read of the evidence of a pair: the latencies of its arms. -/
theorem pairP99_of_whole (hb : b.arm = .baseline) (hc : c.arm = .candidate)
    (hstart : text <+: jsonLines [b.line, c.line]) (hwhole : Whole [b.line, c.line] text) :
    pairP99 float path text = (do return (← b.p99 float path, ← c.p99 float path)) := by
  have hload : loadLines text = some [b.line, c.line] := by
    rcases loadLines_of_start recorded_pair hstart with h | h
    · exact h.2
    · exact absurd hwhole h.1
  rw [pairP99, universalNewlines_of_no_return (ne_return_of_start hstart),
    (foldlM_takeLine float path (none, none)).1 _ hload]
  simp only [List.foldlM_cons, List.foldlM_nil, takeRecord_line, hb, hc]
  cases b.p99 float path with
  | error e => rfl
  | ok x => cases c.p99 float path <;> rfl

/-- What was cut short is not read. -/
theorem pairP99_of_cut (hb : b.arm = .baseline) (hstart : text <+: jsonLines [b.line, c.line])
    (hcut : ¬ Whole [b.line, c.line] text) : ∃ e, pairP99 float path text = .error e := by
  have hload : ∀ js, loadLines text = some js → ∃ k < 2, js = [b.line, c.line].take k := by
    rcases loadLines_of_start recorded_pair hstart with h | h
    · exact absurd h.1 hcut
    · exact h.2
  rw [pairP99, universalNewlines_of_no_return (ne_return_of_start hstart)]
  cases hlines : loadLines text with
  | none =>
    obtain ⟨e, he⟩ := (foldlM_takeLine float path (none, none)).2 hlines
    rw [he]
    exact ⟨e, rfl⟩
  | some js =>
    rw [(foldlM_takeLine float path (none, none)).1 js hlines]
    obtain ⟨k, hk, rfl⟩ := hload js hlines
    match k, hk with
    | 0, _ => exact ⟨_, rfl⟩
    | 1, _ =>
      simp only [List.take_succ_cons, List.take_zero, List.foldlM_cons, List.foldlM_nil,
        takeRecord_line, hb]
      cases b.p99 float path with
      | error e => exact ⟨e, rfl⟩
      | ok x => exact ⟨_, rfl⟩

end

end NoSQLOptimizer.Benchmarks
