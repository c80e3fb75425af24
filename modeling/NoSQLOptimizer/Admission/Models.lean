import Mathlib.Data.List.AList

namespace NoSQLOptimizer.Admission

/-- What Python raises: `ValueError`, which admission catches, or anything else. -/
inductive PyError
  | value
  | other
  deriving DecidableEq

/-- Doubles, and what Python's `math`, NumPy and SHA-256 do with them, as far as admission uses
it. -/
class Numerics (F : Type) extends Add F, Sub F, Mul F, Div F, Neg F, OfScientific F where
  le : F → F → Bool
  lt : F → F → Bool
  eq : F → F → Bool
  isFinite : F → Bool
  log : F → F
  exp : F → F
  square : F → Except PyError F
  ceil : F → Except PyError Int
  mean : List F → F
  /-- `numpy.std(.., ddof=1)` -/
  std : List F → F
  percentile : List F → F → F
  maximum : F → F → F
  /-- `numpy.random.default_rng(seed).integers(0, n, size=(samples, n))` -/
  integers : Nat → Nat → Nat → List (List Nat)
  /-- the first eight bytes of a SHA-256 digest -/
  digest : String → Nat

inductive AdmissionStatus
  | admitted
  | rejectedSafetyInvariant
  | rejectedRegression
  | rejectedNoMeaningfulBenefit
  | inconclusiveNoise
  | inconclusiveEnvironment
  | inconclusiveMissingMetric
  deriving DecidableEq

inductive MetricDirection
  | lowerIsBetter
  | higherIsBetter
  | zeroTolerance
  deriving DecidableEq

inductive ComparisonMode
  | logRatio
  | absoluteDelta
  | booleanInvariant
  deriving DecidableEq

inductive BenchmarkProfile
  | smoke
  | autonomous
  | publication
  deriving DecidableEq

structure ProfileSettings (F : Type) where
  productionEligible : Bool
  bootstrapSamples : Nat
  confidence : F
  candidatePairs : Option Nat := none
  minimumCandidatePairs : Option Nat := none
  maximumCandidatePairs : Option Nat := none

structure MetricPolicy (F : Type) where
  metricKey : String
  direction : MetricDirection
  comparisonMode : ComparisonMode
  relativeCap : Option F := none
  absoluteCap : Option F := none
  hardUpperBoundary : Option F := none
  headroomFraction : Option F := none
  minimumBenefit : F

structure MetricEvaluationInput (F : Type) where
  metricKey : String
  scopeType : String
  scopeId : String
  policy : MetricPolicy F
  baselineValues : List F
  candidateValues : List F
  required : Bool := true
  applicable : Bool := true
  aaScores : List F := []

structure MetricResult (F : Type) where
  metricKey : String
  scopeType : String
  scopeId : String
  direction : MetricDirection
  comparisonMode : ComparisonMode
  baselineReference : F
  allowedRegressionOriginalUnits : F
  allowedRegressionTransformed : F
  pairCount : Nat
  bootstrapSampleCount : Nat
  confidenceLevel : F
  pointEstimateTransformed : F
  upperConfidenceBound : F
  lowerConfidenceBound : F
  passed : Bool
  failureReason : Option String := none
  minimumMeaningfulImprovement : Option F := none
  transformedMinimumBenefit : Option F := none
  primaryBenefitLowerCi : Option F := none
  benefitPassed : Option Bool := none

structure AdmissionRequest (F : Type) where
  candidateId : String
  evaluationRunId : String
  profile : BenchmarkProfile
  primaryMetricKey : String
  metrics : List (MetricEvaluationInput F)
  environmentValid : Bool := true
  safetyInvariantsSafe : Bool := true
  safetyInvariantResults : List String := []

structure AdmissionResult (F : Type) where
  candidateId : String
  evaluationRunId : String
  profile : BenchmarkProfile
  primaryMetricKey : String
  requiredPairCount : Int
  actualPairCount : Nat
  status : AdmissionStatus
  reasonCodes : List String
  protectedMetricResults : List (MetricResult F) := []
  primaryBenefitResult : Option (MetricResult F) := none
  safetyInvariantResults : List String := []
  productionEligible : Bool := false
  familyWisePassed : Option Bool := none
  familyWiseUpperBound : Option F := none

/-- `PROFILES`. -/
def profiles {F : Type} [Numerics F] : BenchmarkProfile → ProfileSettings F
  | .smoke =>
    { productionEligible := false, bootstrapSamples := 1000, confidence := 0.95
      candidatePairs := some 3 }
  | .autonomous =>
    { productionEligible := true, bootstrapSamples := 10000, confidence := 0.95
      minimumCandidatePairs := some 10, maximumCandidatePairs := some 30 }
  | .publication =>
    { productionEligible := false, bootstrapSamples := 10000, confidence := 0.95
      minimumCandidatePairs := some 15, maximumCandidatePairs := some 40 }

namespace MetricEvaluationInput

variable {F : Type} (metric : MetricEvaluationInput F)

/-- The key under which a metric's requirement is kept. -/
def key : String := metric.metricKey ++ "|" ++ metric.scopeType ++ "|" ++ metric.scopeId

/-- How many of the metric's pairs have both arms. -/
def completePairs : Nat := min metric.baselineValues.length metric.candidateValues.length

end MetricEvaluationInput

namespace AdmissionRequest

variable {F : Type} (request : AdmissionRequest F)

def requiredMetrics : List (MetricEvaluationInput F) :=
  request.metrics.filter (fun metric => metric.required && metric.applicable)

def primary : Option (MetricEvaluationInput F) :=
  request.requiredMetrics.find? (·.metricKey = request.primaryMetricKey)

end AdmissionRequest

end NoSQLOptimizer.Admission
