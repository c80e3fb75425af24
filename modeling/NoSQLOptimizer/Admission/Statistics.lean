import NoSQLOptimizer.Admission.Models

namespace NoSQLOptimizer.Admission

open Numerics

variable {F : Type} [Numerics F]

def epsilon : F := 1e-12

def oneSidedZ95 : F := 1.645

def zeroRegressionSentinel : F := 1000000000.0

def minimumObservations : Nat := 3

/-- Python's `max` of two: the first, unless the second is greater. -/
def pyMax (a b : F) : F := if lt a b then b else a

/-- Python's `min`, `None` of nothing. -/
def pyMin : List F → Option F
  | [] => none
  | a :: as => some (as.foldl (fun least b => if lt b least then b else least) a)

/-- `math.log`. -/
def mathLog (x : F) : Except PyError F := if le x 0.0 then .error .value else .ok (log x)

def validateValue (value : F) : Except PyError Unit :=
  if !isFinite value || lt value 0.0 then .error .value else .ok ()

def finiteArray (values : List F) : Except PyError (List F) :=
  if values.all isFinite then .ok values else .error .value

def transformRegression (baseline candidate : F) (direction : MetricDirection)
    (mode : ComparisonMode) : Except PyError F := do
  validateValue baseline
  validateValue candidate
  match mode with
  | .booleanInvariant => return if eq baseline candidate then 0.0 else 1.0
  | .absoluteDelta =>
    return if direction = .lowerIsBetter then candidate - baseline else baseline - candidate
  | .logRatio =>
    if eq baseline 0.0 && eq candidate 0.0 then return 0.0
    else if eq baseline 0.0 then
      return if direction = .lowerIsBetter then zeroRegressionSentinel else -zeroRegressionSentinel
    else if eq candidate 0.0 then
      return if direction = .lowerIsBetter then -zeroRegressionSentinel else zeroRegressionSentinel
    else mathLog (if direction = .lowerIsBetter then candidate / baseline else baseline / candidate)

def transformBenefit (baseline candidate : F) (direction : MetricDirection) : Except PyError F := do
  validateValue baseline
  validateValue candidate
  if eq baseline candidate && eq candidate 0.0 then return 0.0
  else if eq baseline 0.0 then
    return if direction = .lowerIsBetter then -zeroRegressionSentinel else zeroRegressionSentinel
  else if eq candidate 0.0 then
    return if direction = .lowerIsBetter then zeroRegressionSentinel else -zeroRegressionSentinel
  else mathLog (if direction = .lowerIsBetter then baseline / candidate else candidate / baseline)

def calculateBaselineReference (values : List F) (mode : ComparisonMode) : Except PyError F := do
  let array ← finiteArray values
  if array.isEmpty then throw .value
  else if mode = .logRatio then
    if array.any (lt · 0.0) then throw .value
    else if array.any (eq · 0.0) then return 0.0
    else return exp (mean (array.map log))
  else return mean array

def calculateAllowedRegression (baselineReference : F) (policy : MetricPolicy F) :
    Except PyError F :=
  let caps := (policy.relativeCap.map (baselineReference * ·)).toList ++ policy.absoluteCap.toList
  let least (candidates : List F) := (pyMin candidates).elim (.error .value) .ok
  match policy.hardUpperBoundary with
  | none => least caps
  | some boundary =>
    if le boundary baselineReference then .ok 0.0
    else least (caps ++ (policy.headroomFraction.map
      (fun fraction => fraction * pyMax (boundary - baselineReference) 0.0)).toList)

def calculateTransformedRegressionMargin (baselineReference allowedDelta : F)
    (policy : MetricPolicy F) : Except PyError F :=
  match policy.comparisonMode with
  | .absoluteDelta => .ok allowedDelta
  | .booleanInvariant => .ok 0.0
  | .logRatio =>
    if le baselineReference 0.0 then .ok 0.0
    else if policy.direction = .lowerIsBetter then
      mathLog ((baselineReference + allowedDelta) / baselineReference)
    else
      let minimumCandidate := baselineReference - allowedDelta
      if le minimumCandidate 0.0 then .error .value
      else mathLog (baselineReference / minimumCandidate)

def calculateTransformedMinimumBenefit (direction : MetricDirection) (minimumBenefit : F) :
    Except PyError F :=
  if lt 0.0 minimumBenefit && lt minimumBenefit 1.0 then
    if direction = .lowerIsBetter then mathLog (1.0 / (1.0 - minimumBenefit))
    else mathLog (1.0 + minimumBenefit)
  else .error .value

def estimateRequiredPairs (aaScores : List F) (transformedMargin : F) (maximumPairs : Nat) :
    Except PyError Int := do
  if le transformedMargin epsilon then return maximumPairs
  else
    let scores ← finiteArray aaScores
    if scores.length < 2 then throw .value
    else
      let targetHalfWidth := 0.5 * transformedMargin
      ceil (← square (oneSidedZ95 * std scores / targetHalfWidth))

/-- The means of the resampled scores. -/
def resampledMeans (scores : List F) (indices : List (List Nat)) : List F :=
  indices.map (fun row => mean (row.filterMap (scores[·]?)))

def pairedBootstrapCi (scores : List F) (bootstrapSamples seed : Nat) (confidence : F) :
    Except PyError (F × F × F) := do
  let array ← finiteArray scores
  if array.isEmpty then throw .value
  else
    let means := resampledMeans array (integers F seed array.length bootstrapSamples)
    return (mean array, percentile means ((1.0 - confidence) * 100.0),
      percentile means (confidence * 100.0))

def regressionScores (metric : MetricEvaluationInput F) : Except PyError (List F) :=
  (metric.baselineValues.zip metric.candidateValues).mapM (fun pair =>
    transformRegression pair.1 pair.2 metric.policy.direction metric.policy.comparisonMode)

def benefitScores (metric : MetricEvaluationInput F) : Except PyError (List F) :=
  (metric.baselineValues.zip metric.candidateValues).mapM (fun pair =>
    transformBenefit pair.1 pair.2 metric.policy.direction)

def regressionMargin (metric : MetricEvaluationInput F) : Except PyError (F × F × F) := do
  let reference ← calculateBaselineReference metric.baselineValues metric.policy.comparisonMode
  let allowed ← calculateAllowedRegression reference metric.policy
  let margin ← calculateTransformedRegressionMargin reference allowed metric.policy
  return (reference, allowed, margin)

def excesses (metric : MetricEvaluationInput F) : Except PyError (List F) := do
  let (_, _, margin) ← regressionMargin metric
  let scores ← finiteArray (← regressionScores metric)
  return scores.map (· - margin)

/-- The simultaneous bound: every resample takes the same pairs of each metric. -/
def pairedMaxStatisticUpperBound (family : List (MetricEvaluationInput F)) (evaluationRunId : String)
    (bootstrapSamples : Nat) (confidence : F) : Except PyError F :=
  match family with
  | [] => .error .value
  | first :: rest => do
    let pairCount := first.baselineValues.length
    if pairCount < minimumObservations || (first :: rest).any (fun metric =>
        metric.baselineValues.length != pairCount || metric.candidateValues.length != pairCount) then
      throw .value
    else
      let firstExcesses ← excesses first
      let restExcesses ← rest.mapM excesses
      let seed := digest F (evaluationRunId ++ "|family-max-bootstrap")
      let indices := integers F seed pairCount bootstrapSamples
      let maxima := restExcesses.foldl (fun maxima scores =>
        List.zipWith maximum maxima (resampledMeans scores indices))
        (resampledMeans firstExcesses indices)
      return percentile maxima (confidence * 100.0)

def bootstrapSeed (evaluationRunId : String) (metric : MetricEvaluationInput F) : Nat :=
  digest F ("|".intercalate
    [evaluationRunId, metric.metricKey, metric.scopeType, metric.scopeId, "bootstrap"])

def evaluateNonRegression (metric : MetricEvaluationInput F) (evaluationRunId : String)
    (bootstrapSamples : Nat) (confidence : F) : Except PyError (MetricResult F) := do
  let (baselineReference, allowed, margin) ← regressionMargin metric
  let scores ← regressionScores metric
  -- the interval is at the default confidence, the one asked for is only reported
  let (point, lower, upper) ←
    pairedBootstrapCi scores bootstrapSamples (bootstrapSeed evaluationRunId metric) 0.95
  let passed := le upper (margin + epsilon)
  return {
    metricKey := metric.metricKey
    scopeType := metric.scopeType
    scopeId := metric.scopeId
    direction := metric.policy.direction
    comparisonMode := metric.policy.comparisonMode
    baselineReference := baselineReference
    allowedRegressionOriginalUnits := allowed
    allowedRegressionTransformed := margin
    pairCount := scores.length
    bootstrapSampleCount := bootstrapSamples
    confidenceLevel := confidence
    pointEstimateTransformed := point
    upperConfidenceBound := upper
    lowerConfidenceBound := lower
    passed := passed
    failureReason := if passed then none else some "UPPER_CI_EXCEEDS_REGRESSION_MARGIN" }

def evaluatePrimaryBenefit (metric : MetricEvaluationInput F) (evaluationRunId : String)
    (bootstrapSamples : Nat) (confidence : F) : Except PyError (MetricResult F) := do
  let guarded ← evaluateNonRegression metric evaluationRunId bootstrapSamples confidence
  let scores ← benefitScores metric
  let (_, lower, _) ←
    pairedBootstrapCi scores bootstrapSamples (bootstrapSeed evaluationRunId metric) 0.95
  let threshold ←
    calculateTransformedMinimumBenefit metric.policy.direction metric.policy.minimumBenefit
  return { guarded with
    lowerConfidenceBound := lower
    minimumMeaningfulImprovement := some metric.policy.minimumBenefit
    transformedMinimumBenefit := some threshold
    primaryBenefitLowerCi := some lower
    benefitPassed := some (le threshold (lower + epsilon)) }

def requiredForMetric (metric : MetricEvaluationInput F) (maximumPairs : Nat) :
    Except PyError Int := do
  let (_, _, margin) ← regressionMargin metric
  estimateRequiredPairs metric.aaScores margin maximumPairs

def requiredForPrimary (metric : MetricEvaluationInput F) (maximumPairs : Nat) :
    Except PyError Int := do
  estimateRequiredPairs metric.aaScores
    (← calculateTransformedMinimumBenefit metric.policy.direction metric.policy.minimumBenefit)
    maximumPairs

end NoSQLOptimizer.Admission
