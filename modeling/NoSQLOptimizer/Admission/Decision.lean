import NoSQLOptimizer.Admission.Statistics

namespace NoSQLOptimizer.Admission

open Numerics

variable {F α β : Type} [Numerics F]

/-- `try: .. except ValueError: return handled`, and what follows the block. -/
def tryValue (x : Except PyError α) (handled : β) (next : α → Except PyError β) :
    Except PyError β :=
  match x with
  | .ok a => next a
  | .error .value => .ok handled
  | .error .other => .error .other

theorem tryValue_ok {x : Except PyError α} {handled b : β} {next : α → Except PyError β} :
    tryValue x handled next = .ok b ↔
      (∃ a, x = .ok a ∧ next a = .ok b) ∨ (x = .error .value ∧ handled = b) := by
  cases x with
  | ok a => simp [tryValue]
  | error e => cases e <;> simp [tryValue]

/-- A dictionary display: the last value under a key stays. -/
def dictOf (items : List (String × Int)) : AList (fun _ : String => Int) :=
  items.foldl (fun dict item => dict.insert item.1 item.2) ∅

/-- The requirements of a profile that asks the same of every metric. -/
def uniformRequirements (settings : ProfileSettings F) (metrics : List (MetricEvaluationInput F)) :
    AList (fun _ : String => Int) :=
  let pairs := ((settings.candidatePairs.filter (· ≠ 0)).orElse
    (fun _ => settings.minimumCandidatePairs)).getD 0
  dictOf (metrics.map (fun metric => (metric.key, (max minimumObservations pairs : Nat))))

/-- The required count: floor, profile minimum, every metric's requirement and the primary's. -/
def calibratedPairs (settings : ProfileSettings F) (metrics : List (MetricEvaluationInput F))
    (primary : MetricEvaluationInput F) : Except PyError Int := do
  let maximum := settings.maximumCandidatePairs.getD 0
  let requirements ← metrics.mapM (requiredForMetric · maximum)
  let forPrimary ← requiredForPrimary primary maximum
  let least : Int := max minimumObservations (settings.minimumCandidatePairs.getD 0 : Nat)
  return (requirements ++ [forPrimary]).foldl max least

/-- The requirements that the metrics' counts are checked against. -/
def calibratedRequirements (settings : ProfileSettings F)
    (metrics : List (MetricEvaluationInput F)) : Except PyError (AList (fun _ : String => Int)) := do
  let maximum := settings.maximumCandidatePairs.getD 0
  let items ← metrics.mapM (fun metric => do
    return (metric.key, max (minimumObservations : Int) (← requiredForMetric metric maximum)))
  return dictOf items

/-- Some metric has fewer pairs than the requirement under its key. -/
def short (byMetric : AList (fun _ : String => Int)) (metrics : List (MetricEvaluationInput F)) :
    Bool :=
  metrics.any (fun metric =>
    (byMetric.lookup metric.key).any ((metric.baselineValues.length : Int) < ·))

def incomplete (metrics : List (MetricEvaluationInput F)) : Bool :=
  metrics.any (fun metric => metric.baselineValues.length = 0 ||
    metric.baselineValues.length ≠ metric.candidateValues.length)

/-- The three bootstrap evaluations. -/
structure Gates (F : Type) where
  guarded : List (MetricResult F)
  primaryResult : MetricResult F
  familyUpperBound : F

def gates (request : AdmissionRequest F) (primary : MetricEvaluationInput F) :
    Except PyError (Gates F) := do
  let settings : ProfileSettings F := profiles request.profile
  let guarded ← request.requiredMetrics.mapM (evaluateNonRegression · request.evaluationRunId
    settings.bootstrapSamples settings.confidence)
  let primaryResult ← evaluatePrimaryBenefit primary request.evaluationRunId
    settings.bootstrapSamples settings.confidence
  let familyUpperBound ← pairedMaxStatisticUpperBound request.requiredMetrics
    request.evaluationRunId settings.bootstrapSamples settings.confidence
  return ⟨guarded, primaryResult, familyUpperBound⟩

namespace Gates

variable (g : Gates F)

def regresses : Bool := g.guarded.any (!·.passed) || lt epsilon g.familyUpperBound

def benefits : Bool := g.primaryResult.benefitPassed.getD false

end Gates

def actualPairs (request : AdmissionRequest F) : Nat :=
  (request.requiredMetrics.map (·.baselineValues.length)).min?.getD 0

def conclude (request : AdmissionRequest F) (requiredPairs : Int) (status : AdmissionStatus)
    (reasonCodes : List String) : AdmissionResult F where
  candidateId := request.candidateId
  evaluationRunId := request.evaluationRunId
  profile := request.profile
  primaryMetricKey := request.primaryMetricKey
  requiredPairCount := requiredPairs
  actualPairCount := actualPairs request
  status := status
  reasonCodes := reasonCodes
  productionEligible := (profiles (F := F) request.profile).productionEligible

/-- From the check of the counts on. -/
def judge (request : AdmissionRequest F) (primary : MetricEvaluationInput F) (requiredPairs : Int)
    (byMetric : AList (fun _ : String => Int)) : Except PyError (AdmissionResult F) :=
  if short byMetric request.requiredMetrics then
    .ok (conclude request requiredPairs .inconclusiveMissingMetric ["INSUFFICIENT_CANDIDATE_PAIRS"])
  else tryValue (gates request primary)
    (conclude request requiredPairs .inconclusiveMissingMetric ["INVALID_METRIC_DATA"])
    (fun g =>
      let conclude (status : AdmissionStatus) (reasonCodes : List String) : AdmissionResult F :=
        { conclude request requiredPairs status reasonCodes with
          protectedMetricResults := g.guarded
          primaryBenefitResult := some g.primaryResult
          familyWisePassed := some (le g.familyUpperBound epsilon)
          familyWiseUpperBound := some g.familyUpperBound }
      if g.regresses then
        .ok (conclude .rejectedRegression
          (if lt epsilon g.familyUpperBound then
            ["PROTECTED_METRIC_REGRESSION", "FAMILY_WISE_PROTECTION_FAILED"]
          else ["PROTECTED_METRIC_REGRESSION"]))
      else if !g.benefits then
        .ok { conclude .rejectedNoMeaningfulBenefit ["PRIMARY_BENEFIT_NOT_PROVEN"] with
          familyWisePassed := some true }
      else .ok { conclude .admitted [] with familyWisePassed := some true })

/-- `evaluate_candidate_admission`. -/
def evaluateCandidateAdmission (request : AdmissionRequest F) :
    Except PyError (AdmissionResult F) :=
  let settings : ProfileSettings F := profiles request.profile
  let metrics := request.requiredMetrics
  if !request.safetyInvariantsSafe then
    .ok { conclude request 0 .rejectedSafetyInvariant ["SAFETY_INVARIANT_FAILED"] with
      safetyInvariantResults := request.safetyInvariantResults }
  else if !request.environmentValid then
    .ok (conclude request 0 .inconclusiveEnvironment ["ENVIRONMENT_MISMATCH"])
  else if incomplete metrics then
    .ok (conclude request 0 .inconclusiveMissingMetric ["REQUIRED_METRIC_MISSING"])
  else match request.primary with
  | none => .ok (conclude request 0 .inconclusiveMissingMetric ["PRIMARY_METRIC_MISSING"])
  | some primary =>
    if request.profile = .smoke then
      let byMetric := uniformRequirements settings metrics
      judge request primary ((byMetric.entries.map (·.2)).max?.getD minimumObservations) byMetric
    else
      let invalid := conclude request 0 .inconclusiveMissingMetric ["INVALID_METRIC_DATA"]
      tryValue (calibratedPairs settings metrics primary) invalid (fun requiredPairs =>
        if (settings.maximumCandidatePairs.getD 0 : Nat) < requiredPairs then
          .ok (conclude request requiredPairs .inconclusiveNoise
            ["AA_CALIBRATION_EXCEEDS_PROFILE_MAXIMUM"])
        else tryValue (calibratedRequirements settings metrics) invalid
          (judge request primary requiredPairs))

end NoSQLOptimizer.Admission
