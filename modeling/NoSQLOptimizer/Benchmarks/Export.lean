import NoSQLOptimizer.Benchmarks.Evidence
import NoSQLOptimizer.Encoding.Render
import NoSQLOptimizer.Files.Spec

namespace NoSQLOptimizer.Benchmarks.Export

open Encoding Files

/-- A Python value, as far as `_json_value` and the two writers tell values apart.  An object of any
other type has nothing but the name of its type and its `str`. -/
inductive Value
  | null
  | bool (b : Bool)
  | int (n : Int)
  | float (repr : String)
  | str (s : String)
  | enumeration (value text : String)
  | datetime (isoformat text : String)
  | sequence (items : List Value)
  | mapping (items : List (String × Value))
  | dataclass (fields : List (String × Value))
  | other (typeName text : String)

inductive ExportError
  | valueError (text : String)
  | fileExistsError (text : String)
  | typeError (text : String)
  | runtimeError (text : String)
  deriving DecidableEq

/-- The text of a float in a JSON text. -/
def floatText (repr : String) : String :=
  if repr = "nan" then "NaN" else if repr = "inf" then "Infinity"
  else if repr = "-inf" then "-Infinity" else repr

namespace Value

mutual

/-- `_json_value`, up to what `json.dumps` has no text for. -/
def json : Value → Except ExportError Json
  | .null => .ok .null
  | .bool b => .ok (.bool b)
  | .int n => .ok (.int n)
  | .float repr => .ok (.float (floatText repr))
  | .str s => .ok (.str s)
  | .enumeration value _ => .ok (.str value)
  | .datetime isoformat _ => .ok (.str isoformat)
  | .sequence items => (jsonItems items).map Json.list
  | .mapping items => (jsonFields items).map Json.object
  | .dataclass fields => (jsonFields fields).map Json.object
  | .other typeName _ =>
    .error (.typeError ("Object of type " ++ typeName ++ " is not JSON serializable"))

def jsonItems : List Value → Except ExportError (List Json)
  | [] => .ok []
  | v :: vs => do return (← v.json) :: (← jsonItems vs)

def jsonFields : List (String × Value) → Except ExportError (List (String × Json))
  | [] => .ok []
  | (name, v) :: fs => do return (name, ← v.json) :: (← jsonFields fs)

end

/-- `json.dumps(_json_value(..), indent=.., sort_keys=True)`. -/
def dumps (indent : Option ℕ) (v : Value) : Except ExportError Text :=
  v.json.map (fun j => j.canonical.render indent 0)

/-- What `csv` writes of `_csv_value`. -/
def csvText : Value → Except ExportError Text
  | .null => .ok []
  | .bool b => .ok (if b then "True" else "False").toList
  | .int n => .ok n.repr.toList
  | .float repr => .ok repr.toList
  | .str s => .ok s.toList
  | .enumeration _ text => .ok text.toList
  | .datetime _ text => .ok text.toList
  | .other _ text => .ok text.toList
  | .sequence items => (Value.sequence items).dumps none
  | .mapping items => (Value.mapping items).dumps none
  | .dataclass fields => (Value.dataclass fields).dumps none

end Value

abbrev Mapping := List (String × Value)

structure BenchmarkRunRecord where
  pairId : String
  arm : BenchmarkArm
  armOrder : BenchmarkArmOrder
  seed : Int
  datasetFingerprint : String
  initialDatasetFingerprint : String
  facts : List (String × String)
  hardwareManifest : Mapping
  metrics : Mapping

structure AdmissionResult where
  candidateId : String
  evaluationRunId : String
  profile : String
  primaryMetricKey : String
  requiredPairCount : Int
  actualPairCount : Int
  status : String
  reasonCodes : List String
  productionEligible : Bool
  protectedMetricResults : List Mapping
  primaryBenefitResult : Option Mapping
  safetyInvariantResults : List String

structure LedgerEntry where
  entryId : String
  createdAt : String
  beforeState : Mapping
  intendedState : Mapping
  afterState : Mapping
  forwardAction : Mapping
  inverseAction : Mapping
  evidenceHash : String
  actor : String
  previousLedgerHash : String
  currentLedgerHash : String

/-- `_json_value` looks at an entry as at any dataclass. -/
def LedgerEntry.value (e : LedgerEntry) : Value := .dataclass
  [("entry_id", .str e.entryId),
    ("created_at", .datetime e.createdAt e.createdAt),
    ("before_state", .mapping e.beforeState),
    ("intended_state", .mapping e.intendedState),
    ("after_state", .mapping e.afterState),
    ("forward_action", .mapping e.forwardAction),
    ("inverse_action", .mapping e.inverseAction),
    ("evidence_hash", .str e.evidenceHash),
    ("actor", .str e.actor),
    ("previous_ledger_hash", .str e.previousLedgerHash),
    ("current_ledger_hash", .str e.currentLedgerHash)]

/-- All evidence required to export a single reproducible experiment. -/
structure ExperimentExport where
  experimentId : String
  manifest : Mapping
  environment : Mapping
  workload : Mapping
  policy : Mapping
  rawTrials : List BenchmarkRunRecord
  metricSummary : List Mapping
  admissionResults : List AdmissionResult
  candidateResults : List Mapping
  aiResults : List Mapping
  ledgerEntries : List LedgerEntry

def requiredFiles : List String :=
  ["manifest.json", "environment.json", "workload.json", "policy.json", "raw_trials.csv",
    "metric_summary.csv", "admission_results.csv", "candidate_results.csv", "ai_results.jsonl",
    "ledger.jsonl", "README.md"]

def isAlphanumeric (c : Char) : Bool :=
  ('A' ≤ c ∧ c ≤ 'Z') ∨ ('a' ≤ c ∧ c ≤ 'z') ∨ ('0' ≤ c ∧ c ≤ '9')

/-- `_EXPERIMENT_ID`. -/
def isExperimentId (experimentId : String) : Bool :=
  match experimentId.toList with
  | [] => false
  | c :: cs => isAlphanumeric c ∧ cs.length ≤ 127 ∧
    cs.all (fun c => isAlphanumeric c ∨ c = '.' ∨ c = '_' ∨ c = '-')

def trialRow (record : BenchmarkRunRecord) : Mapping :=
  [("pair_id", .str record.pairId),
    ("arm", .str record.arm.value),
    ("arm_order", .str record.armOrder.value),
    ("seed", .int record.seed),
    ("dataset_fingerprint", .str record.datasetFingerprint),
    ("initial_dataset_fingerprint", .str record.initialDatasetFingerprint),
    ("environment_fingerprint", .mapping (record.facts.map (fun f => (f.1, .str f.2)))),
    ("hardware_manifest", .dataclass record.hardwareManifest)] ++ record.metrics

def admissionRow (result : AdmissionResult) : Mapping :=
  [("candidate_id", .str result.candidateId),
    ("evaluation_run_id", .str result.evaluationRunId),
    ("profile", .str result.profile),
    ("primary_metric_key", .str result.primaryMetricKey),
    ("required_pair_count", .int result.requiredPairCount),
    ("actual_pair_count", .int result.actualPairCount),
    ("status", .str result.status),
    ("reason_codes", .sequence (result.reasonCodes.map .str)),
    ("production_eligible", .bool result.productionEligible),
    ("protected_metric_results", .sequence (result.protectedMetricResults.map .dataclass)),
    ("primary_benefit_result", (result.primaryBenefitResult.map .dataclass).getD .null),
    ("safety_invariant_results", .sequence (result.safetyInvariantResults.map .str))]

/-- Whether `csv` puts a field between quotes. -/
def isQuoted (text : Text) : Bool := text.any (fun c => c = ',' ∨ c = '"' ∨ c = '\n' ∨ c = '\r')

def csvField (text : Text) : Text :=
  if isQuoted text then '"' :: (text.flatMap (fun c => if c = '"' then ['"', '"'] else [c]) ++ ['"'])
  else text

/-- A record of one empty field has to be told from an empty record. -/
def csvLine (fields : List Text) : Text :=
  (if fields = [[]] then ['"', '"'] else List.intercalate [','] (fields.map csvField)) ++ ['\n']

def headers (rows : List Mapping) : List String :=
  (rows.flatMap (List.map Prod.fst)).dedup.mergeSort (fun a b => decide (a ≤ b))

def csvRow (headers : List String) (row : Mapping) : Except ExportError Text :=
  (headers.mapM (fun key => ((row.lookup key).getD .null).csvText)).map csvLine

abbrev Run := Filing String String ExportError

/-- `Path.write_text`. -/
def writeText (directory name : String) (text : Text) : Run Unit := do
  Filing.change (.create directory name)
  Filing.change (.append directory name text)

def writeJson (directory name : String) (value : Mapping) : Run Unit := do
  let text ← Filing.lift ((Value.mapping value).dumps (some 2))
  writeText directory name (text ++ ['\n'])

def writeJsonl (directory name : String) (values : List Value) : Run Unit := do
  let texts ← Filing.lift (values.mapM (Value.dumps none))
  writeText directory name (texts.flatMap (· ++ ['\n']))

def writeCsv (directory name : String) (rows : List Mapping) : Run Unit := do
  Filing.change (.create directory name)
  Filing.change (.append directory name (csvLine ((headers rows).map String.toList)))
  rows.forM (fun row => do
    let text ← Filing.lift (csvRow (headers rows) row)
    Filing.change (.append directory name text))

def readme (experimentId : String) : Text :=
  ("# Experiment " ++ experimentId ++ "\n\n" ++
    "This directory is a complete, read-only result export. `manifest.json` identifies the " ++
    "export; `environment.json`, `workload.json`, and `policy.json` preserve its inputs. " ++
    "CSV files contain raw trials, metric summaries, admissions, and candidates. JSONL files " ++
    "preserve AI and append-only ledger evidence.\n").toList

structure ResultExporter where
  artifactsRoot : String := "artifacts"

/-- Create one complete artifact directory and return its path. -/
def ResultExporter.export (exporter : ResultExporter) (evidence : ExperimentExport) :
    Run String := do
  let directory := evidence.experimentId
  if !isExperimentId directory then
    Filing.raise (.valueError "experiment ID must be a safe relative artifact name")
  else if ← Filing.folderExists directory then
    Filing.raise (.fileExistsError ("experiment artifacts already exist: " ++
      exporter.artifactsRoot ++ "/" ++ directory))
  else
    Filing.change (.mkdir directory false)
    writeJson directory "manifest.json" evidence.manifest
    writeJson directory "environment.json" evidence.environment
    writeJson directory "workload.json" evidence.workload
    writeJson directory "policy.json" evidence.policy
    writeCsv directory "raw_trials.csv" (evidence.rawTrials.map trialRow)
    writeCsv directory "metric_summary.csv" evidence.metricSummary
    writeCsv directory "admission_results.csv" (evidence.admissionResults.map admissionRow)
    writeCsv directory "candidate_results.csv" evidence.candidateResults
    writeJsonl directory "ai_results.jsonl" (evidence.aiResults.map .mapping)
    writeJsonl directory "ledger.jsonl" (evidence.ledgerEntries.map LedgerEntry.value)
    writeText directory "README.md" (readme directory)
    let names ← Filing.names directory
    if ¬ (names ⊆ requiredFiles ∧ requiredFiles ⊆ names) then
      Filing.raise (.runtimeError "result export is incomplete")
    else return exporter.artifactsRoot ++ "/" ++ directory

end NoSQLOptimizer.Benchmarks.Export
