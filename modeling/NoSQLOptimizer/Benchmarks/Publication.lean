import NoSQLOptimizer.Admission.Decision
import NoSQLOptimizer.Benchmarks.Ablations
import NoSQLOptimizer.Benchmarks.Evidence
import NoSQLOptimizer.Files.Spec

namespace NoSQLOptimizer.Benchmarks

open Admission Encoding Files

inductive SamplingStatus
  | samplingComplete
  | inconclusiveNoise
  deriving DecidableEq

/-- The frozen execution protocol. -/
structure PublicationProtocol where
  aaPairs : ℕ
  minimumCandidatePairs : ℕ
  maximumCandidatePairs : ℕ

def publicationProtocol : PublicationProtocol where
  aaPairs := 12
  minimumCandidatePairs := 15
  maximumCandidatePairs := 40

structure RequiredPairs where
  requiredPairs : Int
  minimumPairs : ℕ
  maximumPairs : ℕ
  status : SamplingStatus

/-- Compute required candidate pairs using the accepted A/A formula. -/
def requiredCandidatePairs {F : Type} [Numerics F] (aaScores baselineValues : List F)
    (policy : MetricPolicy F) (primaryDirection : MetricDirection) (minimumBenefit : F)
    (minimumPairs maximumPairs : ℕ) : Except PyError RequiredPairs := do
  let reference ← calculateBaselineReference baselineValues policy.comparisonMode
  let allowed ← calculateAllowedRegression reference policy
  let margin ← calculateTransformedRegressionMargin reference allowed policy
  let protectedRequired ← estimateRequiredPairs aaScores margin maximumPairs
  let benefit ← calculateTransformedMinimumBenefit primaryDirection minimumBenefit
  let primaryRequired ← estimateRequiredPairs aaScores benefit maximumPairs
  let required := max (max (max (minimumObservations : Int) minimumPairs) protectedRequired)
    primaryRequired
  return {
    requiredPairs := required
    minimumPairs
    maximumPairs
    status := if maximumPairs < required then .inconclusiveNoise else .samplingComplete }

def primaryMetricKey : String := "p99_latency_ms"

/-- `DEFAULT_POLICIES[PRIMARY_METRIC_KEY]`. -/
def primaryPolicy {F : Type} [Numerics F] : MetricPolicy F where
  metricKey := primaryMetricKey
  direction := .lowerIsBetter
  comparisonMode := .logRatio
  relativeCap := some 0.05
  absoluteCap := some 100.0
  minimumBenefit := 0.05

/-- What an arm of a pair came to: its reset and its measurement. -/
structure Trial where
  resetImplementation : String
  resetFingerprint : String
  measurement : RealBenchmarkMeasurement

/-- What is known before the candidate pairs. -/
structure Calibration (F : Type) where
  aaPairCount : ℕ
  scores : List F
  required : RequiredPairs

inductive Conclusion (F : Type)
  | inconclusiveNoise
  | decided (candidatePairCount : ℕ) (admission : AdmissionResult F) (gateEnabled sandboxOnly : Bool)

/-- The summary of a run, as far as it is the same whenever the run takes place. -/
structure PublicationSummary (F : Type) where
  experimentId : String
  profile : WorkloadProfile
  mode : AblationMode
  aaPairCount : ℕ
  requiredPairs : Int
  samplingStatus : SamplingStatus
  conclusion : Conclusion F

/-- What is written with `write_json`, and read by no run. -/
inductive Report (F : Type)
  | dataset
  | plan
  | reset
  | progress (aaPairs : ℕ) (requiredPairs : Int)
  | admission (result : AdmissionResult F)
  | summary (summary : PublicationSummary F)

inductive Folder
  | output
  | pairs
  deriving DecidableEq

/-- The arguments of a run, the plan that its mode resolves to, and what its pairs measure.  `float`
reads the text of a float, `render` is the text of a report. -/
structure Publication (F : Type) where
  profile : WorkloadProfile
  outputDir : String
  experimentId : String
  plan : AblationPlan
  datasetFingerprint : String
  environment : Environment
  trial : String → BenchmarkArm → Trial
  float : String → Option F
  render : Report F → Text

/-- `{index:02d}`. -/
def twoDigits (index : ℕ) : String := if index < 10 then "0" ++ index.repr else index.repr

/-- `deterministic_arm_order`. -/
def deterministicArmOrder (F : Type) [Numerics F] (evaluationRunId : String) (pairIndex : ℕ) :
    BenchmarkArmOrder :=
  if Numerics.digest F (evaluationRunId ++ "|" ++ pairIndex.repr) / 2 ^ 56 % 2 = 0 then .ab else .ba

namespace Publication

abbrev Run := Filing Folder String PublicationError

variable {F : Type} [Numerics F] (p : Publication F)

def aaPairIds : List String :=
  (List.range' 1 publicationProtocol.aaPairs).map
    (fun index => p.experimentId ++ "-aa-" ++ twoDigits index)

def candidatePairIds (count : Int) : Except PublicationError (List String) :=
  if publicationProtocol.minimumCandidatePairs ≤ count ∧
      count ≤ publicationProtocol.maximumCandidatePairs then
    .ok ((List.range' 1 count.toNat).map
      (fun index => p.experimentId ++ "-cand-" ++ twoDigits index))
  else .error (.valueError ("candidate pair count " ++ count.repr ++ " is outside the frozen " ++
    publicationProtocol.minimumCandidatePairs.repr ++ "-" ++
    publicationProtocol.maximumCandidatePairs.repr ++ " range"))

def runRecord (pairId : String) (armOrder : BenchmarkArmOrder) (arm : BenchmarkArm) :
    RealBenchmarkRunRecord where
  pairId := pairId
  arm := arm
  armOrder := armOrder
  seed := CommerceBench.commercebenchSeed
  generatorVersion := CommerceBench.generatorVersion
  datasetFingerprint := p.datasetFingerprint
  initialDatasetFingerprint := p.datasetFingerprint
  environment := p.environment
  measurement := (p.trial pairId arm).measurement
  resetImplementation := (p.trial pairId arm).resetImplementation
  resetFingerprint := some (p.trial pairId arm).resetFingerprint

/-- `run_pair`, up to its call of `persist`. -/
def runPair (pairId : String) (armOrder : BenchmarkArmOrder) :
    Except PublicationError (RealBenchmarkRunRecord × RealBenchmarkRunRecord) :=
  let baseline := p.runRecord pairId armOrder .baseline
  let candidate := p.runRecord pairId armOrder .candidate
  if baseline.initialDatasetFingerprint ≠ candidate.initialDatasetFingerprint then
    .error (.runtimeError "benchmark arms did not begin from equivalent dataset state")
  else if baseline.resetFingerprint ≠ candidate.resetFingerprint then
    .error (.runtimeError "benchmark arms did not begin from equivalent reset fingerprint")
  else .ok (baseline, candidate)

def fileName (pairId : String) : String := pairId ++ ".jsonl"

def path (pairId : String) : String := p.outputDir ++ "/pairs/" ++ fileName pairId

/-- `JsonTrialResultStore.persist`. -/
def persist (pairId : String) (records : List RealBenchmarkRunRecord) : Run Unit := do
  Filing.change (.mkdir .pairs true)
  Filing.change (.create .pairs (fileName pairId))
  records.forM (fun record =>
    Filing.change (.append .pairs (fileName pairId) (record.line.dumps ++ ['\n'])))

/-- Atomically write JSON so interrupted runs never leave partial evidence. -/
def writeJson (name : String) (report : Report F) : Run Unit := do
  Filing.change (.mkdir .output true)
  Filing.change (.create .output (name ++ ".tmp"))
  Filing.change (.append .output (name ++ ".tmp") (p.render report))
  Filing.change (.replace .output (name ++ ".tmp") name)

/-- Return existing pair evidence, or run and persist the pair exactly once. -/
def ensurePair (pair : String × ℕ) : Run String := do
  let size ← Filing.size .pairs (fileName pair.1)
  if size.any (0 < ·) then return pair.1
  else
    let records ← Filing.lift (p.runPair pair.1 (deterministicArmOrder F pair.1 pair.2))
    persist pair.1 [records.1, records.2]
    return pair.1

/-- `_pair_p99`. -/
def readPair (pairId : String) : Run (F × F) := do
  let text ← Filing.readText .pairs (fileName pairId)
  Filing.lift (pairP99 p.float (p.path pairId) text)

def aaScores (aaValues : List (F × F)) : Except PublicationError (List F) :=
  (aaValues.mapM (fun x => transformRegression x.1 x.2 .lowerIsBetter .logRatio)).mapError
    .statistics

def required (aaValues : List (F × F)) (scores : List F) : Except PublicationError RequiredPairs :=
  (requiredCandidatePairs scores (aaValues.map (·.1)) primaryPolicy .lowerIsBetter
    (primaryPolicy (F := F)).minimumBenefit publicationProtocol.minimumCandidatePairs
    publicationProtocol.maximumCandidatePairs).mapError .statistics

/-- The frozen admission gate. -/
def admission (scores : List F) (candidatePairs : List (F × F)) :
    Except PublicationError (AdmissionResult F) :=
  (evaluateCandidateAdmission {
    candidateId := (p.plan.selectedIndex.map (·.name)).getD "native"
    evaluationRunId := p.experimentId
    profile := .publication
    primaryMetricKey := primaryMetricKey
    metrics := [{
      metricKey := primaryMetricKey
      scopeType := "GLOBAL"
      scopeId := "all"
      policy := primaryPolicy
      baselineValues := candidatePairs.map (·.1)
      candidateValues := candidatePairs.map (·.2)
      aaScores := scores }] }).mapError .statistics

def summary (calibration : Calibration F) (conclusion : Conclusion F) : PublicationSummary F where
  experimentId := p.experimentId
  profile := p.profile
  mode := p.plan.mode
  aaPairCount := calibration.aaPairCount
  requiredPairs := calibration.required.requiredPairs
  samplingStatus := calibration.required.status
  conclusion := conclusion

/-- The run up to the required number of candidate pairs. -/
def calibrate : Run (Calibration F) := do
  Filing.change (.mkdir .output true)
  Filing.change (.mkdir .pairs true)
  p.writeJson "dataset.json" .dataset
  p.writeJson "plan.json" .plan
  p.writeJson "reset.json" .reset
  let aaPaths ← (p.aaPairIds.zipIdx 1).mapM p.ensurePair
  let aaValues ← aaPaths.mapM p.readPair
  let scores ← Filing.lift (aaScores aaValues)
  let required ← Filing.lift (required aaValues scores)
  p.writeJson "progress.json" (.progress aaPaths.length required.requiredPairs)
  return { aaPairCount := aaPaths.length, scores, required }

/-- The run from there on. -/
def compare (calibration : Calibration F) : Run (PublicationSummary F) := do
  let pairIds ← Filing.lift (p.candidatePairIds calibration.required.requiredPairs)
  let candidatePaths ← (pairIds.zipIdx 1).mapM p.ensurePair
  let candidatePairs ← candidatePaths.mapM p.readPair
  let admission ← Filing.lift (p.admission calibration.scores candidatePairs)
  let summary := p.summary calibration
    (.decided candidatePaths.length admission p.plan.safetyGate p.plan.sandboxOnly)
  p.writeJson "admission.json" (.admission admission)
  p.writeJson "summary.json" (.summary summary)
  return summary

/-- Run the frozen PUBLICATION sampling protocol for one ablation mode. -/
def runPublication : Run (PublicationSummary F) := do
  let calibration ← p.calibrate
  if calibration.required.status = .inconclusiveNoise then
    let summary := p.summary calibration .inconclusiveNoise
    p.writeJson "summary.json" (.summary summary)
    return summary
  else p.compare calibration

end Publication

end NoSQLOptimizer.Benchmarks
