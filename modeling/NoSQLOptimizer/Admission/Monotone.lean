import Mathlib.Analysis.SpecialFunctions.Log.Basic
import Mathlib.Analysis.SpecialFunctions.Pow.Real
import NoSQLOptimizer.Admission.Order
import NoSQLOptimizer.Statistics.Dominance

namespace NoSQLOptimizer.Admission

open ControlPlane (bind_eq_ok)
open Statistics (Dominated)

/-- Which pairs a generator seeded with a number draws, and the hash that makes the seeds. -/
class Resampling where
  integers : Nat → Nat → Nat → List (List Nat)
  digest : String → Nat

/-- Exact real arithmetic. -/
noncomputable instance reals [Resampling] : Numerics ℝ where
  le a b := decide (a ≤ b)
  lt a b := decide (a < b)
  eq a b := decide (a = b)
  isFinite _ := true
  log := Real.log
  exp := Real.exp
  square x := .ok (x ^ 2)
  ceil x := .ok ⌈x⌉
  mean := Statistics.mean
  std values :=
    √((values.map (fun x => (x - Statistics.mean values) ^ 2)).sum / (values.length - 1 : ℕ))
  percentile := Statistics.percentile
  maximum := max
  integers := Resampling.integers
  digest := Resampling.digest

/-- The value `c'` is no worse than `c`. -/
def NoWorse (direction : MetricDirection) (c c' : ℝ) : Prop :=
  if direction = .lowerIsBetter then c' ≤ c else c ≤ c'

namespace MetricEvaluationInput

variable {F : Type} (metric : MetricEvaluationInput F)

/-- Lower or higher values are better, compared as a log ratio or as an absolute delta. -/
def Comparable : Prop :=
  metric.policy.direction ≠ .zeroTolerance ∧ metric.policy.comparisonMode ≠ .booleanInvariant

end MetricEvaluationInput

/-- Every log ratio of the metric's pairs is within the sentinel. -/
def WithinSentinel (metric : MetricEvaluationInput ℝ) : Prop :=
  ∀ pair ∈ metric.baselineValues.zip metric.candidateValues, 0 < pair.1 → 0 < pair.2 →
    |Real.log (pair.2 / pair.1)| ≤ 1000000000

/-- The same metric, with candidate values that are no worse. -/
structure Improved (metric metric' : MetricEvaluationInput ℝ) : Prop where
  comparable : metric.Comparable
  rest : metric' = { metric with candidateValues := metric'.candidateValues }
  noWorse : List.Forall₂ (NoWorse metric.policy.direction) metric.candidateValues
    metric'.candidateValues
  nonneg : ∀ c ∈ metric'.candidateValues, 0 ≤ c
  within : WithinSentinel metric
  within' : WithinSentinel metric'

/-- The same request, with candidate values that are no worse in every metric that counts. -/
structure Improves (r r' : AdmissionRequest ℝ) : Prop where
  rest : r' = { r with metrics := r'.metrics }
  metrics : List.Forall₂ (fun metric metric' =>
    metric' = { metric with candidateValues := metric'.candidateValues } ∧
      (metric.required = true → metric.applicable = true → Improved metric metric'))
    r.metrics r'.metrics

section Lists

variable {α β γ : Type} {R : α → β → Prop} {as : List α} {bs : List β}

theorem mapM_congr₂ {f : α → Except PyError γ} {g : β → Except PyError γ}
    (h : List.Forall₂ R as bs) (hfg : ∀ a b, R a b → f a = g b) : as.mapM f = bs.mapM g := by
  induction h with
  | nil => rfl
  | cons hab _ ih => rw [List.mapM_cons, List.mapM_cons, hfg _ _ hab, ih]

theorem map_congr₂ {f : α → γ} {g : β → γ} (h : List.Forall₂ R as bs)
    (hfg : ∀ a b, R a b → f a = g b) : as.map f = bs.map g := by
  induction h with
  | nil => rfl
  | cons hab _ ih => rw [List.map_cons, List.map_cons, hfg _ _ hab, ih]

theorem any_congr₂ {f : α → Bool} {g : β → Bool} (h : List.Forall₂ R as bs)
    (hfg : ∀ a b, R a b → f a = g b) : as.any f = bs.any g := by
  induction h with
  | nil => rfl
  | cons hab _ ih => rw [List.any_cons, List.any_cons, hfg _ _ hab, ih]

/-- Related items are both found first, or neither. -/
theorem find?_related {p : α → Bool} {q : β → Bool} (h : List.Forall₂ R as bs)
    (hpq : ∀ a b, R a b → p a = q b) {a : α} (ha : as.find? p = some a) :
    ∃ b, bs.find? q = some b ∧ R a b := by
  induction h with
  | nil => cases ha
  | @cons a' b' _ _ hab _ ih =>
    by_cases hp : p a' = true
    · rw [List.find?_cons_of_pos hp] at ha
      cases ha
      exact ⟨b', List.find?_cons_of_pos (hpq _ _ hab ▸ hp), hab⟩
    · rw [List.find?_cons_of_neg hp] at ha
      obtain ⟨b, hb, hr⟩ := ih ha
      exact ⟨b, by rwa [List.find?_cons_of_neg (hpq _ _ hab ▸ hp)], hr⟩

theorem filter_related {p : α → Bool} {q : β → Bool} (h : List.Forall₂ R as bs)
    (hpq : ∀ a b, R a b → p a = q b) :
    List.Forall₂ (fun a b => R a b ∧ p a = true) (as.filter p) (bs.filter q) := by
  induction h with
  | nil => exact .nil
  | @cons a b _ _ hab _ ih =>
    by_cases hp : p a = true
    · rw [List.filter_cons_of_pos hp, List.filter_cons_of_pos (hpq _ _ hab ▸ hp)]
      exact .cons ⟨hab, hp⟩ ih
    · rw [List.filter_cons_of_neg hp, List.filter_cons_of_neg (hpq _ _ hab ▸ hp)]
      exact ih

/-- Where every item's result has a related one, so have the results of all. -/
theorem mapM_related {γ' : Type} {S : γ → γ' → Prop} {f : α → Except PyError γ}
    {g : β → Except PyError γ'} (h : List.Forall₂ R as bs)
    (hfg : ∀ a b, R a b → ∀ c, f a = .ok c → ∃ c', g b = .ok c' ∧ S c c') {cs : List γ}
    (hcs : as.mapM f = .ok cs) : ∃ cs', bs.mapM g = .ok cs' ∧ List.Forall₂ S cs cs' := by
  rw [mapM_ok] at hcs
  induction h generalizing cs with
  | nil =>
    cases hcs
    exact ⟨[], rfl, .nil⟩
  | cons hab _ ih =>
    cases hcs with
    | cons hc hcs =>
      obtain ⟨c', hc', hs⟩ := hfg _ _ hab _ hc
      obtain ⟨cs', hcs', hss⟩ := ih hcs
      exact ⟨c' :: cs', mapM_ok.mpr (.cons hc' (mapM_ok.mp hcs')), .cons hs hss⟩

theorem Forall₂.and_mem (h : List.Forall₂ R as bs) :
    List.Forall₂ (fun a b => R a b ∧ a ∈ as ∧ b ∈ bs) as bs :=
  List.forall₂_iff_zip.mpr ⟨h.length_eq, fun hab =>
    ⟨(List.forall₂_iff_zip.mp h).2 hab, List.of_mem_zip hab⟩⟩

theorem zip_related (cs : List γ) (h : List.Forall₂ R as bs) :
    List.Forall₂ (fun pair pair' => pair'.1 = pair.1 ∧ R pair.2 pair'.2) (cs.zip as) (cs.zip bs) := by
  induction h generalizing cs with
  | nil =>
    rw [List.zip_nil_right, List.zip_nil_right]
    exact .nil
  | cons hab _ ih =>
    cases cs with
    | nil => exact .nil
    | cons c cs => exact .cons ⟨rfl, hab⟩ (ih cs)

end Lists

/-- By how much `y` exceeds `x` on the log scale, with the sentinel where one of them is zero. -/
noncomputable def logChange (x y : ℝ) : ℝ :=
  if x = 0 then if y = 0 then 0 else 1000000000
  else if y = 0 then -1000000000 else Real.log (y / x)

/-- By how much `y` exceeds `x` under a comparison mode. -/
noncomputable def change (mode : ComparisonMode) (x y : ℝ) : ℝ :=
  if mode = .logRatio then logChange x y else y - x

/-- An increase counts against the candidate exactly where lower is better. -/
noncomputable def signed (direction : MetricDirection) (x : ℝ) : ℝ :=
  if direction = .lowerIsBetter then x else -x

theorem logChange_swap (x y : ℝ) : logChange y x = -logChange x y := by
  by_cases hx : x = 0 <;> by_cases hy : y = 0
  · simp [logChange, hx, hy]
  · simp [logChange, hx, hy]
  · simp [logChange, hx, hy]
  · rw [logChange, if_neg hy, if_neg hx, logChange, if_neg hx, if_neg hy, ← Real.log_inv, inv_div]

theorem logChange_mono {x y y' : ℝ} (hx : 0 ≤ x) (hy : 0 ≤ y) (hle : y ≤ y')
    (hbound : 0 < x → 0 < y' → |Real.log (y' / x)| ≤ 1000000000) :
    logChange x y ≤ logChange x y' := by
  rcases hx.eq_or_lt with rfl | hx <;> rcases hy.eq_or_lt with rfl | hy
  · by_cases hy' : y' = 0
    · simp [logChange, hy']
    · simp [logChange, hy']
  · simp [logChange, hy.ne', (hy.trans_le hle).ne']
  · rcases hle.eq_or_lt with rfl | hy'
    · exact le_refl _
    · have := (abs_le.mp (hbound hx hy')).1
      simpa [logChange, hx.ne', hy'.ne'] using this
  · have hy' := hy.trans_le hle
    rw [logChange, if_neg hx.ne', if_neg hy.ne', logChange, if_neg hx.ne', if_neg hy'.ne']
    exact Real.log_le_log (div_pos hy hx) (div_le_div_of_nonneg_right hle hx.le)

theorem change_mono {mode : ComparisonMode} {x y y' : ℝ} (hx : 0 ≤ x) (hy : 0 ≤ y) (hle : y ≤ y')
    (hbound : 0 < x → 0 < y' → |Real.log (y' / x)| ≤ 1000000000) :
    change mode x y ≤ change mode x y' := by
  unfold change
  split
  · exact logChange_mono hx hy hle hbound
  · exact sub_le_sub_right hle x

/-- A value that is no worse has no greater signed change. -/
theorem signed_change_le {mode : ComparisonMode} {direction : MetricDirection} {x y y' : ℝ}
    (hx : 0 ≤ x) (hy : 0 ≤ y) (hy' : 0 ≤ y') (h : NoWorse direction y y')
    (hbound : 0 < x → 0 < y → |Real.log (y / x)| ≤ 1000000000)
    (hbound' : 0 < x → 0 < y' → |Real.log (y' / x)| ≤ 1000000000) :
    signed direction (change mode x y') ≤ signed direction (change mode x y) := by
  unfold NoWorse at h
  unfold signed
  split at h
  · next hlower =>
    rw [if_pos hlower, if_pos hlower]
    exact change_mono hx hy' h hbound
  · next hhigher =>
    rw [if_neg hhigher, if_neg hhigher]
    exact neg_le_neg (change_mono hx hy h hbound')

/-- A pair of arms and one with the same baseline and a candidate value that is no worse. -/
structure PairImproved (direction : MetricDirection) (pair pair' : ℝ × ℝ) : Prop where
  baseline : pair'.1 = pair.1
  noWorse : NoWorse direction pair.2 pair'.2
  nonneg : 0 ≤ pair'.2
  within : 0 < pair.1 → 0 < pair.2 → |Real.log (pair.2 / pair.1)| ≤ 1000000000
  within' : 0 < pair'.1 → 0 < pair'.2 → |Real.log (pair'.2 / pair'.1)| ≤ 1000000000

theorem PairImproved.change_le {direction : MetricDirection} {pair pair' : ℝ × ℝ}
    (h : PairImproved direction pair pair') (mode : ComparisonMode) (hb : 0 ≤ pair.1)
    (hc : 0 ≤ pair.2) :
    signed direction (change mode pair'.1 pair'.2) ≤ signed direction (change mode pair.1 pair.2) := by
  have hwithin := h.within'
  rw [h.baseline] at hwithin ⊢
  exact signed_change_le hb hc h.nonneg h.noWorse h.within hwithin

theorem Improved.policy {metric metric' : MetricEvaluationInput ℝ}
    (h : Improved metric metric') : metric'.policy = metric.policy := by
  rw [h.rest]

theorem Improved.lengths {metric metric' : MetricEvaluationInput ℝ} (h : Improved metric metric') :
    metric'.baselineValues.length = metric.baselineValues.length ∧
      metric'.candidateValues.length = metric.candidateValues.length := by
  refine ⟨?_, h.noWorse.length_eq.symm⟩
  rw [h.rest]

theorem Improved.key {metric metric' : MetricEvaluationInput ℝ} (h : Improved metric metric') :
    metric'.key = metric.key := by
  rw [h.rest]
  rfl

theorem Improved.pairs {metric metric' : MetricEvaluationInput ℝ}
    (h : Improved metric metric') :
    List.Forall₂ (PairImproved metric.policy.direction)
      (metric.baselineValues.zip metric.candidateValues)
      (metric'.baselineValues.zip metric'.candidateValues) := by
  have hbaseline : metric'.baselineValues = metric.baselineValues := by rw [h.rest]
  rw [hbaseline]
  refine (Forall₂.and_mem (zip_related metric.baselineValues h.noWorse)).imp ?_
  rintro pair pair' ⟨⟨hb, hc⟩, hmem, hmem'⟩
  exact ⟨hb, hc, h.nonneg _ (List.of_mem_zip hmem').2, h.within pair hmem,
    h.within' pair' (hbaseline ▸ hmem')⟩

section

variable {r r' : AdmissionRequest ℝ}

theorem Improves.required (h : Improves r r') :
    List.Forall₂ Improved r.requiredMetrics r'.requiredMetrics := by
  refine (filter_related h.metrics ?_).imp ?_
  · rintro metric metric' ⟨hrest, -⟩
    rw [hrest]
  · rintro metric metric' ⟨⟨-, himproved⟩, hcounts⟩
    obtain ⟨hrequired, happlicable⟩ := Bool.and_eq_true_iff.mp hcounts
    exact himproved hrequired happlicable

theorem Improves.primary (h : Improves r r') {primary : MetricEvaluationInput ℝ}
    (hp : r.primary = some primary) :
    ∃ primary', r'.primary = some primary' ∧ Improved primary primary' := by
  have hkey : r'.primaryMetricKey = r.primaryMetricKey := by rw [h.rest]
  rw [AdmissionRequest.primary, hkey]
  refine find?_related h.required (fun metric metric' h => ?_) hp
  rw [h.rest]

theorem Improves.incomplete (h : Improves r r') :
    incomplete r'.requiredMetrics = incomplete r.requiredMetrics :=
  (any_congr₂ h.required (fun metric metric' h => by rw [h.lengths.1, h.lengths.2])).symm

theorem Improves.short (h : Improves r r') (byMetric : AList (fun _ : String => Int)) :
    short byMetric r'.requiredMetrics = short byMetric r.requiredMetrics :=
  (any_congr₂ h.required (fun metric metric' h => by rw [h.key, h.lengths.1])).symm

theorem Improves.uniformRequirements (h : Improves r r') (settings : ProfileSettings ℝ) :
    uniformRequirements settings r'.requiredMetrics =
      uniformRequirements settings r.requiredMetrics :=
  congrArg dictOf (map_congr₂ h.required (fun metric metric' h => by rw [h.key])).symm

end

section Scores

variable [Resampling]

theorem zeroLiteral : (0.0 : ℝ) = 0 := by norm_num

theorem sentinel_eq : (zeroRegressionSentinel : ℝ) = 1000000000 := by
  change (1000000000.0 : ℝ) = 1000000000
  norm_num

theorem validateValue_eq (value : ℝ) :
    validateValue value = if value < 0 then .error .value else .ok () := by
  rw [← zeroLiteral]
  simp only [validateValue, Numerics.isFinite, Bool.not_true, Bool.false_or]
  exact if_congr decide_eq_true_iff rfl rfl

theorem nonneg_of_validated {value : ℝ} {u : Unit} (h : validateValue value = .ok u) : 0 ≤ value := by
  rw [validateValue_eq] at h
  refine not_lt.mp (fun hno => ?_)
  rw [if_pos hno] at h
  cases h

theorem mathLog_eq {x : ℝ} (h : 0 < x) : mathLog x = .ok (Real.log x) := by
  have hno : Numerics.le x (0.0 : ℝ) = false := decide_eq_false (by
    rw [zeroLiteral]
    exact not_le.mpr h)
  rw [mathLog, hno]
  rfl

theorem transformRegression_nonneg {x y s : ℝ} {direction : MetricDirection}
    {mode : ComparisonMode} (h : transformRegression x y direction mode = .ok s) :
    0 ≤ x ∧ 0 ≤ y := by
  unfold transformRegression at h
  obtain ⟨_, hx, h⟩ := bind_eq_ok.mp h
  obtain ⟨_, hy, -⟩ := bind_eq_ok.mp h
  exact ⟨nonneg_of_validated hx, nonneg_of_validated hy⟩

theorem transformBenefit_nonneg {x y s : ℝ} {direction : MetricDirection}
    (h : transformBenefit x y direction = .ok s) : 0 ≤ x ∧ 0 ≤ y := by
  unfold transformBenefit at h
  obtain ⟨_, hx, h⟩ := bind_eq_ok.mp h
  obtain ⟨_, hy, -⟩ := bind_eq_ok.mp h
  exact ⟨nonneg_of_validated hx, nonneg_of_validated hy⟩

theorem validateValue_ok {value : ℝ} (h : 0 ≤ value) : validateValue value = .ok () := by
  rw [validateValue_eq, if_neg (not_lt.mpr h)]

theorem eq_zeroLiteral (a : ℝ) : Numerics.eq a (0.0 : ℝ) = decide (a = 0) := by
  rw [← zeroLiteral]
  rfl

/-- Both log transforms, with `rising` where an increase scores positive. -/
theorem logScore_eq {x y : ℝ} (hx : 0 ≤ x) (hy : 0 ≤ y) (rising : Prop) [Decidable rising] :
    (if decide (x = 0) && decide (y = 0) then Except.ok (0.0 : ℝ)
    else if decide (x = 0) then
      Except.ok (if rising then 1000000000 else -1000000000)
    else if decide (y = 0) then
      Except.ok (if rising then -1000000000 else 1000000000)
    else mathLog (if rising then y / x else x / y)) =
      Except.ok (if rising then logChange x y else -logChange x y) := by
  rw [← logChange_swap]
  rcases hx.eq_or_lt with rfl | hx <;> rcases hy.eq_or_lt with rfl | hy
  · simp only [logChange, decide_true, Bool.and_self, if_true, ite_self, zeroLiteral]
  · simp only [logChange, hy.ne', decide_true, decide_false, Bool.and_false, if_true, if_false,
      Bool.false_eq_true]
  · simp only [logChange, hx.ne', decide_true, decide_false, Bool.false_and, if_true, if_false,
      Bool.false_eq_true]
  · simp only [logChange, hx.ne', hy.ne', decide_false, Bool.and_self, if_false,
      Bool.false_eq_true]
    split
    · exact mathLog_eq (div_pos hy hx)
    · exact mathLog_eq (div_pos hx hy)

theorem transformRegression_eq {x y : ℝ} {direction : MetricDirection} {mode : ComparisonMode}
    (hx : 0 ≤ x) (hy : 0 ≤ y) (hmode : mode ≠ .booleanInvariant) :
    transformRegression x y direction mode = .ok (signed direction (change mode x y)) := by
  simp only [transformRegression, validateValue_ok hx, validateValue_ok hy, bind, Except.bind]
  cases mode with
  | booleanInvariant => exact absurd rfl hmode
  | absoluteDelta =>
    change Except.ok (if direction = .lowerIsBetter then y - x else x - y) =
      .ok (if direction = .lowerIsBetter then y - x else -(y - x))
    rw [neg_sub]
  | logRatio =>
    rw [signed, change, if_pos rfl, ← logScore_eq hx hy]
    simp only [eq_zeroLiteral, sentinel_eq]
    rfl

theorem transformBenefit_eq {x y : ℝ} {direction : MetricDirection} (hx : 0 ≤ x) (hy : 0 ≤ y) :
    transformBenefit x y direction = .ok (-signed direction (change .logRatio x y)) := by
  have hboth : (Numerics.eq x y && decide (y = 0)) = (decide (x = 0) && decide (y = 0)) := by
    by_cases hy0 : y = 0
    · rw [hy0]
      rfl
    · simp [hy0]
  have hscore := logScore_eq hx hy (¬ direction = .lowerIsBetter)
  have hsigned : -signed direction (change .logRatio x y) =
      if ¬ direction = .lowerIsBetter then logChange x y else -logChange x y := by
    rw [signed, change, if_pos rfl, ite_not]
    split
    · rfl
    · exact neg_neg _
  rw [hsigned, ← hscore]
  simp only [transformBenefit, validateValue_ok hx, validateValue_ok hy, bind, Except.bind,
    eq_zeroLiteral, hboth, sentinel_eq, ite_not]
  rfl

section

variable {direction : MetricDirection} {pair pair' : ℝ × ℝ} {s : ℝ}

theorem PairImproved.regression (h : PairImproved direction pair pair') {mode : ComparisonMode}
    (hmode : mode ≠ .booleanInvariant)
    (hs : transformRegression pair.1 pair.2 direction mode = .ok s) :
    ∃ s', transformRegression pair'.1 pair'.2 direction mode = .ok s' ∧ s' ≤ s := by
  obtain ⟨hb, hc⟩ := transformRegression_nonneg hs
  rw [transformRegression_eq hb hc hmode] at hs
  cases hs
  exact ⟨_, transformRegression_eq (h.baseline ▸ hb) h.nonneg hmode, h.change_le mode hb hc⟩

theorem PairImproved.benefit (h : PairImproved direction pair pair')
    (hs : transformBenefit pair.1 pair.2 direction = .ok s) :
    ∃ s', transformBenefit pair'.1 pair'.2 direction = .ok s' ∧ s ≤ s' := by
  obtain ⟨hb, hc⟩ := transformBenefit_nonneg hs
  rw [transformBenefit_eq hb hc] at hs
  cases hs
  exact ⟨_, transformBenefit_eq (h.baseline ▸ hb) h.nonneg, neg_le_neg (h.change_le _ hb hc)⟩

end

section

variable {metric metric' : MetricEvaluationInput ℝ}

theorem Improved.regressionScores (h : Improved metric metric') {scores : List ℝ}
    (hs : regressionScores metric = .ok scores) :
    ∃ scores', regressionScores metric' = .ok scores' ∧ Dominated scores' scores := by
  unfold Admission.regressionScores at hs ⊢
  rw [h.policy]
  obtain ⟨scores', hscores', hle⟩ :=
    mapM_related h.pairs (fun _ _ hpair _ hs => hpair.regression h.comparable.2 hs) hs
  exact ⟨scores', hscores', hle.flip⟩

theorem Improved.benefitScores (h : Improved metric metric') {scores : List ℝ}
    (hs : benefitScores metric = .ok scores) :
    ∃ scores', benefitScores metric' = .ok scores' ∧ Dominated scores scores' := by
  unfold Admission.benefitScores at hs ⊢
  rw [h.policy]
  exact mapM_related h.pairs (fun _ _ hpair _ hs => hpair.benefit hs) hs

theorem Improved.regressionMargin (h : Improved metric metric') :
    regressionMargin metric' = regressionMargin metric := by
  rw [h.rest]
  rfl

theorem Improved.requiredForMetric (h : Improved metric metric') {maximumPairs : Nat} :
    requiredForMetric metric' maximumPairs = requiredForMetric metric maximumPairs := by
  rw [h.rest]
  rfl

theorem Improved.requiredForPrimary (h : Improved metric metric') {maximumPairs : Nat} :
    requiredForPrimary metric' maximumPairs = requiredForPrimary metric maximumPairs := by
  rw [h.rest]
  rfl

end

theorem finiteArray_eq (values : List ℝ) : finiteArray values = .ok values := by
  have hall : values.all Numerics.isFinite = true := List.all_eq_true.mpr (fun _ _ => rfl)
  rw [finiteArray, if_pos hall]

theorem resampledMeans_mono {scores scores' : List ℝ} (h : Dominated scores scores')
    (indices : List (List Nat)) :
    Dominated (resampledMeans scores indices) (resampledMeans scores' indices) := by
  induction indices with
  | nil => exact .nil
  | cons row indices ih => exact .cons (Statistics.mean_mono (h.drawn row)) ih

theorem pairedBootstrapCi_eq {scores : List ℝ} (h : scores ≠ []) (samples seed : Nat)
    (confidence : ℝ) :
    pairedBootstrapCi scores samples seed confidence = .ok (Statistics.mean scores,
      Statistics.percentile (resampledMeans scores (Resampling.integers seed scores.length samples))
        ((1.0 - confidence) * 100.0),
      Statistics.percentile (resampledMeans scores (Resampling.integers seed scores.length samples))
        (confidence * 100.0)) := by
  have hempty : scores.isEmpty = false := by simpa using h
  simp only [pairedBootstrapCi, finiteArray_eq, bind, Except.bind, hempty, Bool.false_eq_true,
    if_false]
  rfl

theorem pairedBootstrapCi_nonempty {scores : List ℝ} {samples seed : Nat} {confidence : ℝ}
    {interval : ℝ × ℝ × ℝ} (h : pairedBootstrapCi scores samples seed confidence = .ok interval) :
    scores ≠ [] := by
  rintro rfl
  cases h

theorem pairedBootstrapCi_mono {scores scores' : List ℝ} (h : Dominated scores scores')
    (hne : scores ≠ []) (samples seed : Nat) (confidence : ℝ) :
    ∃ interval interval', pairedBootstrapCi scores samples seed confidence = .ok interval ∧
      pairedBootstrapCi scores' samples seed confidence = .ok interval' ∧
      interval.2.1 ≤ interval'.2.1 ∧ interval.2.2 ≤ interval'.2.2 := by
  have hne' : scores' ≠ [] := by
    rintro rfl
    cases h
    exact hne rfl
  refine ⟨_, _, pairedBootstrapCi_eq hne samples seed confidence,
    pairedBootstrapCi_eq hne' samples seed confidence, ?_, ?_⟩ <;>
  · rw [h.length_eq]
    exact Statistics.percentile_mono (resampledMeans_mono h _) _

section

variable {metric metric' : MetricEvaluationInput ℝ} {evaluationRunId : String} {samples : Nat}
  {confidence : ℝ}

theorem Improved.seed (h : Improved metric metric') :
    bootstrapSeed evaluationRunId metric' = bootstrapSeed evaluationRunId metric := by
  rw [h.rest]
  rfl

theorem Improved.nonRegression (h : Improved metric metric') {result : MetricResult ℝ}
    (hok : evaluateNonRegression metric evaluationRunId samples confidence = .ok result) :
    ∃ result', evaluateNonRegression metric' evaluationRunId samples confidence = .ok result' ∧
      (result.passed = true → result'.passed = true) := by
  unfold evaluateNonRegression at hok
  obtain ⟨⟨reference, allowed, margin⟩, hmargin, hok⟩ := bind_eq_ok.mp hok
  obtain ⟨scores, hscores, hok⟩ := bind_eq_ok.mp hok
  obtain ⟨⟨point, lower, upper⟩, hci, hok⟩ := bind_eq_ok.mp hok
  cases hok
  obtain ⟨scores', hscores', hle⟩ := h.regressionScores hscores
  obtain ⟨interval', interval, hci', hci₂, -, hupper⟩ := pairedBootstrapCi_mono hle
    (hle.ne_nil (pairedBootstrapCi_nonempty hci)) samples (bootstrapSeed evaluationRunId metric) 0.95
  rw [hci] at hci₂
  cases hci₂
  simp only [evaluateNonRegression, h.regressionMargin, h.seed, hmargin, hscores', hci',
    bind, Except.bind]
  exact ⟨_, rfl, fun hpassed => decide_eq_true (hupper.trans (of_decide_eq_true hpassed))⟩

theorem Improved.primaryBenefit (h : Improved metric metric') {result : MetricResult ℝ}
    (hok : evaluatePrimaryBenefit metric evaluationRunId samples confidence = .ok result) :
    ∃ result', evaluatePrimaryBenefit metric' evaluationRunId samples confidence = .ok result' ∧
      (result.benefitPassed = some true → result'.benefitPassed = some true) := by
  unfold evaluatePrimaryBenefit at hok
  obtain ⟨guarded, hguarded, hok⟩ := bind_eq_ok.mp hok
  obtain ⟨scores, hscores, hok⟩ := bind_eq_ok.mp hok
  obtain ⟨⟨point, lower, upper⟩, hci, hok⟩ := bind_eq_ok.mp hok
  obtain ⟨threshold, hthreshold, hok⟩ := bind_eq_ok.mp hok
  cases hok
  obtain ⟨guarded', hguarded', -⟩ := h.nonRegression hguarded
  obtain ⟨scores', hscores', hle⟩ := h.benefitScores hscores
  obtain ⟨interval, interval', hci₂, hci', hlower, -⟩ := pairedBootstrapCi_mono hle
    (pairedBootstrapCi_nonempty hci) samples (bootstrapSeed evaluationRunId metric) 0.95
  rw [hci] at hci₂
  cases hci₂
  simp only [evaluatePrimaryBenefit, h.policy, h.seed, hguarded', hscores', hci',
    hthreshold, bind, Except.bind]
  refine ⟨_, rfl, fun hpassed => ?_⟩
  have hpassed := of_decide_eq_true (Option.some.inj hpassed)
  exact congrArg some (decide_eq_true (hpassed.trans (add_le_add_left hlower _)))

theorem Improved.excesses (h : Improved metric metric') {scores : List ℝ}
    (hok : excesses metric = .ok scores) :
    ∃ scores', excesses metric' = .ok scores' ∧ Dominated scores' scores := by
  unfold Admission.excesses at hok ⊢
  rw [h.regressionMargin]
  obtain ⟨⟨reference, allowed, margin⟩, hmargin, hok⟩ := bind_eq_ok.mp hok
  obtain ⟨raw, hraw, hok⟩ := bind_eq_ok.mp hok
  rw [finiteArray_eq] at hok
  cases hok
  obtain ⟨raw', hraw', hle⟩ := h.regressionScores hraw
  rw [hmargin]
  refine ⟨raw'.map (· - margin), ?_, ?_⟩
  · simp only [hraw', finiteArray_eq, bind, Except.bind]
    rfl
  · exact List.forall₂_map_left_iff.mpr (List.forall₂_map_right_iff.mpr
      (hle.imp (fun _ _ hle => sub_le_sub_right hle margin)))

end

/-- The running maxima of the family. -/
theorem foldl_zipWith_max_mono {rest rest' : List (List ℝ)} (h : List.Forall₂ Dominated rest rest')
    (indices : List (List Nat)) {first first' : List ℝ} (hfirst : Dominated first first') :
    Dominated
      (rest.foldl (fun maxima scores =>
        List.zipWith Numerics.maximum maxima (resampledMeans scores indices)) first)
      (rest'.foldl (fun maxima scores =>
        List.zipWith Numerics.maximum maxima (resampledMeans scores indices)) first') := by
  induction h generalizing first first' with
  | nil => exact hfirst
  | cons hxy _ ih => exact ih (hfirst.zipWith_max (resampledMeans_mono hxy indices))

theorem pairedMaxStatisticUpperBound_improved {family family' : List (MetricEvaluationInput ℝ)}
    (h : List.Forall₂ Improved family family') {evaluationRunId : String} {samples : Nat}
    {confidence bound : ℝ}
    (hok : pairedMaxStatisticUpperBound family evaluationRunId samples confidence = .ok bound) :
    ∃ bound', pairedMaxStatisticUpperBound family' evaluationRunId samples confidence = .ok bound' ∧
      bound' ≤ bound := by
  cases h with
  | nil => cases hok
  | @cons first first' rest rest' hfirst hrest =>
    have hcount : first'.baselineValues.length = first.baselineValues.length := hfirst.lengths.1
    have haligned : (first :: rest).any (fun metric =>
          metric.baselineValues.length != first.baselineValues.length ||
            metric.candidateValues.length != first.baselineValues.length) =
        (first' :: rest').any (fun metric =>
          metric.baselineValues.length != first.baselineValues.length ||
            metric.candidateValues.length != first.baselineValues.length) :=
      any_congr₂ (List.Forall₂.cons hfirst hrest) (fun metric metric' h => by
        rw [h.lengths.1, h.lengths.2])
    unfold pairedMaxStatisticUpperBound at hok ⊢
    simp only [hcount, ← haligned]
    dsimp only at hok
    split at hok
    · cases hok
    · next hno =>
      rw [if_neg hno]
      obtain ⟨firstExcesses, hfirstOk, hok⟩ := bind_eq_ok.mp hok
      obtain ⟨restExcesses, hrestOk, hok⟩ := bind_eq_ok.mp hok
      cases hok
      obtain ⟨firstExcesses', hfirstOk', hle⟩ := hfirst.excesses hfirstOk
      obtain ⟨restExcesses', hrestOk', hles⟩ :=
        mapM_related hrest (fun _ _ h _ hc => h.excesses hc) hrestOk
      simp only [hfirstOk', hrestOk', bind, Except.bind]
      exact ⟨_, rfl, Statistics.percentile_mono
        (foldl_zipWith_max_mono hles.flip _ (resampledMeans_mono hle _)) _⟩

section

variable {r r' : AdmissionRequest ℝ}

theorem Improves.settings (h : Improves r r') : r'.settings = r.settings := by
  rw [h.rest]
  rfl

/-- The calibration does not look at candidate values. -/
theorem Improves.calibratedPairs (h : Improves r r') {primary primary' : MetricEvaluationInput ℝ}
    (hp : Improved primary primary') (settings : ProfileSettings ℝ) :
    calibratedPairs settings r'.requiredMetrics primary' =
      calibratedPairs settings r.requiredMetrics primary := by
  have hmetrics (maximum : Nat) : r'.requiredMetrics.mapM (requiredForMetric · maximum) =
      r.requiredMetrics.mapM (requiredForMetric · maximum) :=
    (mapM_congr₂ h.required (fun metric metric' h => h.requiredForMetric.symm)).symm
  simp only [Admission.calibratedPairs, hmetrics, hp.requiredForPrimary]

theorem Improves.calibratedRequirements (h : Improves r r') (settings : ProfileSettings ℝ) :
    calibratedRequirements settings r'.requiredMetrics =
      calibratedRequirements settings r.requiredMetrics := by
  refine congrArg (· >>= fun items => .ok (dictOf items)) (mapM_congr₂ h.required ?_).symm
  intro metric metric' h
  rw [h.key, h.requiredForMetric]

theorem Improves.gates (h : Improves r r') {primary primary' : MetricEvaluationInput ℝ}
    (hp : Improved primary primary') {g : Gates ℝ} (hg : gates r primary = .ok g)
    (hguarded : g.regresses = false) (hbenefits : g.benefits = true) :
    ∃ g', gates r' primary' = .ok g' ∧ g'.regresses = false ∧ g'.benefits = true := by
  have hrun : r'.evaluationRunId = r.evaluationRunId := by rw [h.rest]
  have hprofile : r'.profile = r.profile := by rw [h.rest]
  unfold Admission.gates at hg ⊢
  rw [hrun, hprofile]
  obtain ⟨guarded, hguardedOk, hg⟩ := bind_eq_ok.mp hg
  obtain ⟨benefit, hbenefitOk, hg⟩ := bind_eq_ok.mp hg
  obtain ⟨bound, hboundOk, hg⟩ := bind_eq_ok.mp hg
  cases hg
  obtain ⟨guarded', hguardedOk', hpass⟩ :=
    mapM_related h.required (fun _ _ h _ hok => h.nonRegression hok) hguardedOk
  obtain ⟨benefit', hbenefitOk', hbenefit⟩ := hp.primaryBenefit hbenefitOk
  obtain ⟨bound', hboundOk', hle⟩ := pairedMaxStatisticUpperBound_improved h.required hboundOk
  obtain ⟨hpassed, hfamily⟩ := Bool.or_eq_false_iff.mp hguarded
  have hbound := not_lt.mp (of_decide_eq_false hfamily)
  simp only [hguardedOk', hbenefitOk', hboundOk', bind, Except.bind]
  refine ⟨_, rfl, Bool.or_eq_false_iff.mpr ⟨?_, ?_⟩, ?_⟩
  · refine List.any_eq_false.mpr (fun result' hresult' => ?_)
    obtain ⟨result, hresult, hpass⟩ := Forall₂.exists_right hpass.flip hresult'
    have := List.any_eq_false.mp hpassed result hresult
    simp only [Bool.not_eq_true, Bool.not_eq_false'] at this
    simp [hpass this]
  · exact decide_eq_false (not_lt.mpr (hle.trans hbound))
  · have hsome : benefit.benefitPassed = some true := by
      cases hb : benefit.benefitPassed with
      | none => simp [Gates.benefits, hb] at hbenefits
      | some passed => simpa [Gates.benefits, hb] using hbenefits
    simp [Gates.benefits, hbenefit hsome]

/-- Candidate values that are no worse never take an admission away. -/
theorem admitted_improved (h : Improves r r') {result : AdmissionResult ℝ}
    (hresult : evaluateCandidateAdmission r = .ok result) (hs : result.status = .admitted) :
    ∃ result', evaluateCandidateAdmission r' = .ok result' ∧ result'.status = .admitted := by
  have hsafe' : r'.safetyInvariantsSafe = r.safetyInvariantsSafe := by rw [h.rest]
  have henv' : r'.environmentValid = r.environmentValid := by rw [h.rest]
  have hprofile : r'.profile = r.profile := by rw [h.rest]
  by_cases hsmoke : r.profile = .smoke
  · obtain ⟨hsafe, henv, hcomplete, primary, hprimary⟩ := evaluate_checked hresult hs
    obtain ⟨primary', hprimary', himproved⟩ := h.primary hprimary
    simp only [evaluateCandidateAdmission, hsafe, henv, hcomplete, hprimary, hsmoke, Bool.not_true,
      Bool.false_eq_true, ↓reduceIte] at hresult
    obtain ⟨-, hshort, g, hg, hguarded, hbenefits⟩ := judge_admitted hresult hs
    obtain ⟨g', hg', hguarded', hbenefits'⟩ := h.gates himproved hg hguarded hbenefits
    rw [← h.short] at hshort
    obtain ⟨result', hresult', hs', -⟩ := judge_passes _ hshort hg' hguarded' hbenefits'
    refine ⟨result', ?_, hs'⟩
    simp only [evaluateCandidateAdmission, hsafe', hsafe, henv', henv, h.incomplete, hcomplete,
      hprimary', hprofile, hsmoke, h.uniformRequirements, Bool.not_true, Bool.false_eq_true,
      ↓reduceIte]
    exact hresult'
  · obtain ⟨primary, byMetric, g, hpasses, -⟩ := evaluate_admitted hresult hs hsmoke
    obtain ⟨primary', hprimary', himproved⟩ := h.primary hpasses.declared
    obtain ⟨g', hg', hguarded', hbenefits'⟩ :=
      h.gates himproved hpasses.evaluated hpasses.guarded hpasses.benefits
    have hmaximum : r'.maximumPairs = r.maximumPairs := by
      rw [AdmissionRequest.maximumPairs, h.settings]
      rfl
    have hpasses' : Passes r' primary' byMetric g' :=
      { calibrated := hprofile ▸ hsmoke
        safe := hsafe'.trans hpasses.safe
        environment := henv'.trans hpasses.environment
        complete := h.incomplete.trans hpasses.complete
        declared := hprimary'
        quiet := by
          rw [h.settings, h.calibratedPairs himproved, hmaximum]
          exact hpasses.quiet
        requirements := by
          rw [h.settings, h.calibratedRequirements]
          exact hpasses.requirements
        counts := (h.short byMetric).trans hpasses.counts
        evaluated := hg'
        guarded := hguarded'
        benefits := hbenefits' }
    exact hpasses'.admitted

end

end Scores

section

/-- Every resample is the sample itself. -/
@[reducible] def plainly : Resampling where
  integers _ n samples := List.replicate samples (List.range n)
  digest text := (text.toList.map Char.toNat).sum

local instance : Resampling := plainly

noncomputable def latency : MetricEvaluationInput ℝ where
  metricKey := "latency"
  scopeType := "GLOBAL"
  scopeId := "latency"
  policy :=
    { metricKey := "latency"
      direction := .lowerIsBetter
      comparisonMode := .absoluteDelta
      absoluteCap := some 1
      minimumBenefit := 1 / 20 }
  baselineValues := [2, 2, 2]
  candidateValues := [1, 1, 1]

/-- A candidate that takes half as long in every pair. -/
noncomputable def halved : AdmissionRequest ℝ where
  candidateId := "candidate"
  evaluationRunId := "evaluation"
  profile := .smoke
  primaryMetricKey := "latency"
  metrics := [latency]

noncomputable def vanished : AdmissionRequest ℝ :=
  { halved with metrics := [{ latency with candidateValues := [0, 0, 0] }] }

theorem halved_improves : Improves halved vanished := by
  refine ⟨rfl, .cons ⟨rfl, fun _ _ => ⟨⟨nofun, nofun⟩, rfl, ?_, ?_, ?_, ?_⟩⟩ .nil⟩
  · have hworse : NoWorse .lowerIsBetter 1 0 := by
      rw [NoWorse, if_pos rfl]
      exact zero_le_one
    exact .cons hworse (.cons hworse (.cons hworse .nil))
  · simp
  · intro pair hpair _ _
    have hpair : pair = (2, 1) := by simpa [latency] using hpair
    have hlog : Real.log 2 ≤ 1000000000 := by
      have := Real.log_le_sub_one_of_pos (zero_lt_two (α := ℝ))
      linarith
    have hpos : 0 ≤ Real.log 2 := Real.log_nonneg one_le_two
    rw [hpair, Real.log_div one_ne_zero two_ne_zero, Real.log_one, zero_sub, abs_neg,
      abs_of_nonneg hpos]
    exact hlog
  · intro pair hpair _ hpos
    have hpair : pair = (2, 0) := by simpa [latency] using hpair
    rw [hpair] at hpos
    exact absurd hpos (lt_irrefl 0)

theorem resampledMeans_plainly (c : ℝ) (samples : Nat) :
    resampledMeans (List.replicate 3 c) (List.replicate samples (List.range 3)) =
      List.replicate samples c := by
  rw [resampledMeans, List.map_replicate]
  exact congrArg _ (Statistics.mean_replicate 2 c)

theorem pairedBootstrapCi_plainly (c : ℝ) (samples seed : Nat) (confidence : ℝ) :
    pairedBootstrapCi (List.replicate 3 c) (samples + 1) seed confidence = .ok (c, c, c) := by
  rw [pairedBootstrapCi_eq (by simp)]
  change Except.ok (Statistics.mean (List.replicate (2 + 1) c),
    Statistics.percentile (resampledMeans (List.replicate 3 c)
      (List.replicate (samples + 1) (List.range 3))) _,
    Statistics.percentile (resampledMeans (List.replicate 3 c)
      (List.replicate (samples + 1) (List.range 3))) _) = _
  rw [resampledMeans_plainly, Statistics.mean_replicate, Statistics.percentile_replicate,
    Statistics.percentile_replicate]

theorem latency_margin : regressionMargin latency = .ok (2, 1, 1) := by
  have hmean : Statistics.mean [2, 2, 2] = (2 : ℝ) := Statistics.mean_replicate 2 2
  change Except.ok (Statistics.mean [2, 2, 2], _, _) = _
  rw [hmean]
  rfl

theorem latency_scores : regressionScores latency = .ok (List.replicate 3 (-1)) := by
  have hscore : transformRegression (2 : ℝ) 1 .lowerIsBetter .absoluteDelta = .ok (-1) := by
    rw [transformRegression_eq zero_le_two zero_le_one (by decide), signed, if_pos rfl, change,
      if_neg (by decide)]
    norm_num
  exact mapM_ok.mpr (.cons hscore (.cons hscore (.cons hscore .nil)))

theorem latency_benefits : benefitScores latency = .ok (List.replicate 3 (Real.log 2)) := by
  have hscore : transformBenefit (2 : ℝ) 1 .lowerIsBetter = .ok (Real.log 2) := by
    rw [transformBenefit_eq zero_le_two zero_le_one, signed, if_pos rfl, change, if_pos rfl,
      ← logChange_swap, logChange, if_neg one_ne_zero, if_neg two_ne_zero, div_one]
  exact mapM_ok.mpr (.cons hscore (.cons hscore (.cons hscore .nil)))

theorem epsilon_pos : (0 : ℝ) < epsilon := by
  change (0 : ℝ) < 1e-12
  norm_num

theorem latency_regression : ∃ result,
    evaluateNonRegression latency "evaluation" 1000 (0.95 : ℝ) = .ok result ∧
      result.passed = true := by
  have hci := pairedBootstrapCi_plainly (-1) 999 (bootstrapSeed "evaluation" latency) 0.95
  have hpassed : (-1 : ℝ) ≤ 1 + epsilon := by linarith [epsilon_pos]
  simp only [evaluateNonRegression, latency_margin, latency_scores, hci, bind, Except.bind]
  exact ⟨_, rfl, decide_eq_true hpassed⟩

theorem latency_threshold :
    calculateTransformedMinimumBenefit .lowerIsBetter (1 / 20 : ℝ) = .ok (Real.log (20 / 19)) := by
  have hpos : Numerics.lt (0.0 : ℝ) (1 / 20) = true := decide_eq_true (by norm_num)
  have hone : Numerics.lt (1 / 20 : ℝ) 1.0 = true := decide_eq_true (by norm_num)
  have hratio : (1.0 / (1.0 - 1 / 20) : ℝ) = 20 / 19 := by norm_num
  rw [calculateTransformedMinimumBenefit, hpos, hone]
  exact (mathLog_eq (by norm_num)).trans (by rw [hratio])

theorem latency_benefit : ∃ result,
    evaluatePrimaryBenefit latency "evaluation" 1000 (0.95 : ℝ) = .ok result ∧
      result.benefitPassed = some true := by
  obtain ⟨result, hresult, -⟩ := latency_regression
  have hci := pairedBootstrapCi_plainly (Real.log 2) 999 (bootstrapSeed "evaluation" latency) 0.95
  have hthreshold : calculateTransformedMinimumBenefit latency.policy.direction
      latency.policy.minimumBenefit = .ok (Real.log (20 / 19)) := latency_threshold
  have hlog : Real.log (20 / 19) ≤ Real.log 2 := Real.log_le_log (by norm_num) (by norm_num)
  have hpassed : Real.log (20 / 19) ≤ Real.log 2 + epsilon := by linarith [epsilon_pos]
  simp only [evaluatePrimaryBenefit, hresult, latency_benefits, hci, hthreshold, bind, Except.bind]
  exact ⟨_, rfl, congrArg some (decide_eq_true hpassed)⟩

theorem latency_family :
    pairedMaxStatisticUpperBound [latency] "evaluation" 1000 (0.95 : ℝ) = .ok (-2) := by
  have hexcesses : excesses latency = .ok (List.replicate 3 (-2)) := by
    have hexcess : (-1 - 1 : ℝ) = -2 := by norm_num
    simp only [excesses, latency_margin, latency_scores, finiteArray_eq, bind, Except.bind]
    change Except.ok (List.replicate 3 (-1 - 1 : ℝ)) = _
    rw [hexcess]
  have haligned : (decide ((latency.baselineValues).length < minimumObservations) ||
      [latency].any (fun metric => metric.baselineValues.length != latency.baselineValues.length ||
        metric.candidateValues.length != latency.baselineValues.length)) = false := rfl
  simp only [pairedMaxStatisticUpperBound, haligned, hexcesses, bind, Except.bind, List.mapM_nil,
    Bool.false_eq_true, ↓reduceIte]
  change Except.ok (Statistics.percentile (resampledMeans (List.replicate 3 (-2))
    (List.replicate 1000 (List.range 3))) _) = _
  rw [resampledMeans_plainly, Statistics.percentile_replicate 999]

theorem halved_gates : ∃ g, gates halved latency = .ok g ∧ g.regresses = false ∧
    g.benefits = true := by
  obtain ⟨result, hresult, hpassed⟩ := latency_regression
  obtain ⟨benefit, hbenefit, hbenefits⟩ := latency_benefit
  have hbound : Numerics.lt epsilon (-2 : ℝ) = false := decide_eq_false (by linarith [epsilon_pos])
  refine ⟨⟨[result], benefit, -2⟩, ?_, ?_, ?_⟩
  · change ([latency].mapM (evaluateNonRegression · "evaluation" 1000 0.95) >>= _) = _
    rw [List.mapM_cons, hresult]
    change (evaluatePrimaryBenefit latency "evaluation" 1000 0.95 >>= _) = _
    rw [hbenefit]
    change (pairedMaxStatisticUpperBound [latency] "evaluation" 1000 0.95 >>= _) = _
    rw [latency_family]
    rfl
  · simp only [Gates.regresses, hbound, List.any_cons, hpassed, List.any_nil]
    rfl
  · simp only [Gates.benefits, hbenefits, Option.getD_some]

theorem halved_admitted : ∃ result, evaluateCandidateAdmission halved = .ok result ∧
    result.status = .admitted := by
  obtain ⟨g, hg, hguarded, hbenefits⟩ := halved_gates
  have hshort : short (uniformRequirements (profiles .smoke) halved.requiredMetrics)
      halved.requiredMetrics = false := by decide +kernel
  obtain ⟨result, hjudge, hs, -⟩ := judge_passes 3 hshort hg hguarded hbenefits
  exact ⟨result, hjudge, hs⟩

theorem admitted_improved_halved : Improves halved vanished ∧
    ∃ result, evaluateCandidateAdmission vanished = .ok result ∧ result.status = .admitted := by
  obtain ⟨result, hresult, hs⟩ := halved_admitted
  exact ⟨halved_improves, admitted_improved halved_improves hresult hs⟩

end

end NoSQLOptimizer.Admission
