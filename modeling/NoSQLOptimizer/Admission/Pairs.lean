import NoSQLOptimizer.Admission.Decision
import NoSQLOptimizer.Admission.Rationals
import NoSQLOptimizer.ControlPlane.Rows

namespace NoSQLOptimizer.Admission

open ControlPlane (bind_eq_ok)
open Numerics

variable {F : Type}

/-- The metrics under whose key a later metric's requirement is kept. -/
def shadowed : List (MetricEvaluationInput F) → List (MetricEvaluationInput F)
  | [] => []
  | metric :: metrics =>
    if metrics.any (·.key = metric.key) then metric :: shadowed metrics else shadowed metrics

theorem shadowed_cons {metric other : MetricEvaluationInput F}
    {metrics : List (MetricEvaluationInput F)} (h : metric ∈ shadowed metrics) :
    metric ∈ shadowed (other :: metrics) := by
  unfold shadowed
  split
  · exact List.mem_cons_of_mem _ h
  · exact h

theorem mem_of_mem_shadowed {metric : MetricEvaluationInput F}
    {metrics : List (MetricEvaluationInput F)} (h : metric ∈ shadowed metrics) :
    metric ∈ metrics := by
  induction metrics with
  | nil => cases h
  | cons first rest ih =>
    unfold shadowed at h
    split at h
    · rcases List.mem_cons.mp h with rfl | h
      · exact List.mem_cons_self
      · exact List.mem_cons_of_mem _ (ih h)
    · exact List.mem_cons_of_mem _ (ih h)

/-- A check that refuses has not led to an admission. -/
theorem refuse_ok {refuses : Prop} [Decidable refuses] {refusal result : AdmissionResult F}
    {next : Except PyError (AdmissionResult F)}
    (h : (if refuses then .ok refusal else next) = .ok result) (hs : result.status = .admitted)
    (hr : refusal.status ≠ .admitted) : ¬ refuses ∧ next = .ok result := by
  split at h
  · cases h
    exact absurd hs hr
  · next hno => exact ⟨hno, h⟩

theorem tryValue_admitted {α : Type} {x : Except PyError α} {refusal result : AdmissionResult F}
    {next : α → Except PyError (AdmissionResult F)} (h : tryValue x refusal next = .ok result)
    (hs : result.status = .admitted) (hr : refusal.status ≠ .admitted) :
    ∃ a, x = .ok a ∧ next a = .ok result := by
  rcases tryValue_ok.mp h with h | ⟨-, rfl⟩
  · exact h
  · exact absurd hs hr

variable [Numerics F]

namespace AdmissionRequest

variable (request : AdmissionRequest F)

def settings : ProfileSettings F := profiles request.profile

def maximumPairs : Nat := request.settings.maximumCandidatePairs.getD 0

end AdmissionRequest

/-- Admitted means enough pairs: every required metric has the reported count, which covers the
profile's minimum and, where the profile calibrates, every A/A requirement. -/
def Enough (request : AdmissionRequest F) : Prop :=
  ∀ result, evaluateCandidateAdmission request = .ok result → result.status = .admitted →
    (∀ metric ∈ request.requiredMetrics, result.requiredPairCount ≤ metric.completePairs) ∧
    (∀ n, request.settings.minimumCandidatePairs = some n → n ≤ result.requiredPairCount) ∧
    (request.profile ≠ .smoke →
      (∀ metric ∈ request.requiredMetrics, ∀ n,
        requiredForMetric metric request.maximumPairs = .ok n → n ≤ result.requiredPairCount) ∧
      (∀ primary n, request.primary = some primary →
        requiredForPrimary primary request.maximumPairs = .ok n → n ≤ result.requiredPairCount))

/-- What goes into the reported count and is not checked against any metric's own count. -/
inductive Unchecked (request : AdmissionRequest F) : Int → Prop
  | minimum {n : Nat} : request.settings.minimumCandidatePairs = some n → Unchecked request n
  | primary : request.primary = some primary →
      requiredForPrimary primary request.maximumPairs = .ok n → Unchecked request n
  | shadowed : metric ∈ shadowed request.requiredMetrics →
      requiredForMetric metric request.maximumPairs = .ok n → Unchecked request n

/-- Every check that a calibrated request is put to lets it through. -/
structure Passes (request : AdmissionRequest F) (primary : MetricEvaluationInput F)
    (byMetric : AList (fun _ : String => Int)) (g : Gates F) : Prop where
  calibrated : request.profile ≠ .smoke
  safe : request.safetyInvariantsSafe = true
  environment : request.environmentValid = true
  complete : incomplete request.requiredMetrics = false
  declared : request.primary = some primary
  quiet : ∃ n, calibratedPairs request.settings request.requiredMetrics primary = .ok n ∧
    n ≤ request.maximumPairs
  requirements : calibratedRequirements request.settings request.requiredMetrics = .ok byMetric
  counts : short byMetric request.requiredMetrics = false
  evaluated : gates request primary = .ok g
  guarded : g.regresses = false
  benefits : g.benefits = true

/-- The unchecked requirements are met all the same. -/
def Covered (request : AdmissionRequest F) : Prop :=
  ∀ n, Unchecked request n → ∀ metric ∈ request.requiredMetrics, n ≤ metric.completePairs

theorem foldl_max_le {items : List Int} {a b : Int} :
    items.foldl max a ≤ b ↔ a ≤ b ∧ ∀ x ∈ items, x ≤ b := by
  induction items generalizing a with
  | nil => simp
  | cons x items ih => rw [List.foldl_cons, ih, Int.max_le, List.forall_mem_cons, and_assoc]

theorem lookup_foldl_of_ne {items : List (String × Int)} {d : AList (fun _ : String => Int)}
    {k : String} (h : ∀ item ∈ items, item.1 ≠ k) :
    (items.foldl (fun dict item => dict.insert item.1 item.2) d).lookup k = d.lookup k := by
  induction items generalizing d with
  | nil => rfl
  | cons item items ih =>
    rw [List.foldl_cons, ih (fun item' h' => h item' (List.mem_cons_of_mem _ h')),
      AList.lookup_insert_ne (h item List.mem_cons_self).symm]

/-- A dictionary holds nothing that was not put into it. -/
theorem mem_of_lookup_foldl {items : List (String × Int)} {d : AList (fun _ : String => Int)}
    {k : String} {v : Int}
    (h : (items.foldl (fun dict item => dict.insert item.1 item.2) d).lookup k = some v) :
    (k, v) ∈ items ∨ d.lookup k = some v := by
  induction items generalizing d with
  | nil => exact .inr h
  | cons item items ih =>
    rcases ih h with h | h
    · exact .inl (List.mem_cons_of_mem _ h)
    · by_cases hk : item.1 = k
      · subst hk
        rw [AList.lookup_insert] at h
        cases h
        exact .inl List.mem_cons_self
      · exact .inr (by rwa [AList.lookup_insert_ne (Ne.symm hk)] at h)

theorem mem_of_mem_dictOf {items : List (String × Int)} {e : Sigma (fun _ : String => Int)}
    (h : e ∈ (dictOf items).entries) : (e.1, e.2) ∈ items := by
  rcases mem_of_lookup_foldl (AList.mem_lookup_iff.mpr h) with h | h
  · exact h
  · cases h

theorem max?_getD_of_forall {items : List Int} {a : Int} (h : ∀ x ∈ items, x = a) :
    items.max?.getD a = a := by
  rw [List.eq_replicate_of_mem h, List.max?_replicate]
  split <;> rfl

theorem mapM_ok {α β : Type} {f : α → Except PyError β} {items : List α} {results : List β} :
    items.mapM f = .ok results ↔ List.Forall₂ (fun a b => f a = .ok b) items results := by
  induction items generalizing results with
  | nil =>
    rw [List.mapM_nil, List.forall₂_nil_left_iff]
    exact ⟨fun h => (by cases h; rfl), fun h => (by rw [h]; rfl)⟩
  | cons a items ih =>
    rw [List.mapM_cons, List.forall₂_cons_left_iff]
    cases f a with
    | error e => exact ⟨fun h => (by cases h), fun ⟨_, _, h, _⟩ => (by cases h)⟩
    | ok b =>
      cases has : items.mapM f with
      | error e =>
        refine ⟨fun h => (by cases h), fun ⟨_, bs, _, hbs, _⟩ => ?_⟩
        rw [ih.mpr hbs] at has
        cases has
      | ok bs =>
        constructor
        · intro h
          cases h
          exact ⟨b, bs, rfl, ih.mp has, rfl⟩
        · rintro ⟨b', bs', hb, hbs, rfl⟩
          rw [ih.mpr hbs] at has
          cases hb
          cases has
          rfl

theorem Forall₂.exists_right {α β : Type} {R : α → β → Prop} {as : List α} {bs : List β}
    (h : List.Forall₂ R as bs) {a : α} (ha : a ∈ as) : ∃ b ∈ bs, R a b := by
  induction h with
  | nil => cases ha
  | cons hab _ ih =>
    rcases List.mem_cons.mp ha with rfl | ha
    · exact ⟨_, List.mem_cons_self, hab⟩
    · obtain ⟨b, hb, h⟩ := ih ha
      exact ⟨b, List.mem_cons_of_mem _ hb, h⟩

/-- What the reported count is made of. -/
theorem calibratedPairs_ok {settings : ProfileSettings F} {metrics : List (MetricEvaluationInput F)}
    {primary : MetricEvaluationInput F} {n : Int}
    (h : calibratedPairs settings metrics primary = .ok n) :
    ∃ requirements forPrimary,
      List.Forall₂ (fun metric k =>
        requiredForMetric metric (settings.maximumCandidatePairs.getD 0) = .ok k) metrics
        requirements ∧
      requiredForPrimary primary (settings.maximumCandidatePairs.getD 0) = .ok forPrimary ∧
      ∀ b, n ≤ b ↔ (minimumObservations : Int) ≤ b ∧
        (settings.minimumCandidatePairs.getD 0 : Nat) ≤ b ∧ (∀ k ∈ requirements, k ≤ b) ∧
        forPrimary ≤ b := by
  unfold calibratedPairs at h
  obtain ⟨requirements, hm, h⟩ := bind_eq_ok.mp h
  obtain ⟨forPrimary, hp, h⟩ := bind_eq_ok.mp h
  cases h
  refine ⟨requirements, forPrimary, mapM_ok.mp hm, hp, fun b => ?_⟩
  rw [foldl_max_le, List.forall_mem_append]
  simp [and_assoc]

/-- The requirement under a metric's key is the metric's own, unless a later one took its place. -/
theorem lookup_requirement {maximum : Nat} {metrics : List (MetricEvaluationInput F)}
    {items : List (String × Int)} {d : AList (fun _ : String => Int)}
    (h : List.Forall₂ (fun metric item => ∃ n, requiredForMetric metric maximum = .ok n ∧
      item = (metric.key, max (minimumObservations : Int) n)) metrics items)
    {metric : MetricEvaluationInput F} {n : Int} (hm : metric ∈ metrics)
    (hn : requiredForMetric metric maximum = .ok n) :
    metric ∈ shadowed metrics ∨
      (items.foldl (fun dict item => dict.insert item.1 item.2) d).lookup metric.key =
        some (max (minimumObservations : Int) n) := by
  induction h generalizing d with
  | nil => cases hm
  | @cons first item rest items hfirst hrest ih =>
    rcases List.mem_cons.mp hm with rfl | hm
    · by_cases hany : rest.any (·.key = metric.key)
      · exact .inl (by simp [shadowed, hany])
      · refine .inr ?_
        obtain ⟨n', hn', rfl⟩ := hfirst
        rw [hn] at hn'
        cases hn'
        rw [List.foldl_cons, lookup_foldl_of_ne, AList.lookup_insert]
        intro item hitem hkey
        obtain ⟨other, hother, _, _, rfl⟩ := Forall₂.exists_right hrest.flip hitem
        exact hany (List.any_eq_true.mpr ⟨other, hother, by simpa using hkey⟩)
    · exact (ih hm).imp shadowed_cons (fun h => h)

theorem calibratedRequirements_ok {settings : ProfileSettings F}
    {metrics : List (MetricEvaluationInput F)} {byMetric : AList (fun _ : String => Int)}
    (h : calibratedRequirements settings metrics = .ok byMetric)
    {metric : MetricEvaluationInput F} {n : Int} (hm : metric ∈ metrics)
    (hn : requiredForMetric metric (settings.maximumCandidatePairs.getD 0) = .ok n) :
    metric ∈ shadowed metrics ∨
      byMetric.lookup metric.key = some (max (minimumObservations : Int) n) := by
  unfold calibratedRequirements at h
  obtain ⟨items, hitems, h⟩ := bind_eq_ok.mp h
  cases h
  refine lookup_requirement ((mapM_ok.mp hitems).imp ?_) hm hn
  intro metric item hitem
  obtain ⟨n, hn, hitem⟩ := bind_eq_ok.mp hitem
  cases hitem
  exact ⟨n, hn, rfl⟩

/-- The simultaneous bound is taken over metrics that all have the same number of pairs. -/
theorem family_aligned {family : List (MetricEvaluationInput F)} {evaluationRunId : String}
    {samples : Nat} {confidence bound : F}
    (h : pairedMaxStatisticUpperBound family evaluationRunId samples confidence = .ok bound) :
    ∃ n, minimumObservations ≤ n ∧ ∀ metric ∈ family,
      metric.baselineValues.length = n ∧ metric.candidateValues.length = n := by
  unfold pairedMaxStatisticUpperBound at h
  split at h
  · cases h
  · next first rest =>
    dsimp only at h
    split at h
    · cases h
    · next hno =>
      simp only [Bool.not_eq_true, Bool.or_eq_false_iff, decide_eq_false_iff_not, Nat.not_lt,
        List.any_eq_false, bne_eq_false_iff_eq] at hno
      exact ⟨_, hno.1, hno.2⟩

theorem gates_ok {request : AdmissionRequest F} {primary : MetricEvaluationInput F} {g : Gates F}
    (h : gates request primary = .ok g) :
    ∃ n, minimumObservations ≤ n ∧ ∀ metric ∈ request.requiredMetrics,
      metric.baselineValues.length = n ∧ metric.candidateValues.length = n := by
  unfold gates at h
  obtain ⟨_, -, h⟩ := bind_eq_ok.mp h
  obtain ⟨_, -, h⟩ := bind_eq_ok.mp h
  obtain ⟨_, hfamily, -⟩ := bind_eq_ok.mp h
  exact family_aligned hfamily

theorem judge_admitted {request : AdmissionRequest F} {primary : MetricEvaluationInput F}
    {requiredPairs : Int} {byMetric : AList (fun _ : String => Int)} {result : AdmissionResult F}
    (h : judge request primary requiredPairs byMetric = .ok result)
    (hs : result.status = .admitted) :
    result.requiredPairCount = requiredPairs ∧ short byMetric request.requiredMetrics = false ∧
      ∃ g, gates request primary = .ok g ∧ g.regresses = false ∧ g.benefits = true := by
  obtain ⟨hshort, h⟩ := refuse_ok h hs nofun
  obtain ⟨g, hg, h⟩ := tryValue_admitted h hs nofun
  obtain ⟨hguarded, h⟩ := refuse_ok h hs nofun
  obtain ⟨hbenefits, h⟩ := refuse_ok h hs nofun
  cases h
  exact ⟨rfl, by simpa using hshort, g, hg, by simpa using hguarded, by simpa using hbenefits⟩

theorem judge_passes {request : AdmissionRequest F} {primary : MetricEvaluationInput F}
    (requiredPairs : Int) {byMetric : AList (fun _ : String => Int)} {g : Gates F}
    (hshort : short byMetric request.requiredMetrics = false) (hg : gates request primary = .ok g)
    (hguarded : g.regresses = false) (hbenefits : g.benefits = true) :
    ∃ result, judge request primary requiredPairs byMetric = .ok result ∧
      result.status = .admitted ∧ result.requiredPairCount = requiredPairs := by
  simp only [judge, hshort, Bool.false_eq_true, ↓reduceIte, tryValue, hg, hguarded, hbenefits,
    Bool.not_true]
  exact ⟨_, rfl, rfl, rfl⟩

/-- What the checks before the calibration have let through. -/
theorem evaluate_checked {request : AdmissionRequest F} {result : AdmissionResult F}
    (h : evaluateCandidateAdmission request = .ok result) (hs : result.status = .admitted) :
    request.safetyInvariantsSafe = true ∧ request.environmentValid = true ∧
      incomplete request.requiredMetrics = false ∧ ∃ primary, request.primary = some primary := by
  obtain ⟨hsafe, h⟩ := refuse_ok h hs nofun
  obtain ⟨henv, h⟩ := refuse_ok h hs nofun
  obtain ⟨hcomplete, h⟩ := refuse_ok h hs nofun
  cases hp : request.primary with
  | none =>
    simp only [hp] at h
    cases h
    cases hs
  | some primary =>
    exact ⟨by simpa using hsafe, by simpa using henv, by simpa using hcomplete, primary, rfl⟩

theorem evaluate_admitted {request : AdmissionRequest F} {result : AdmissionResult F}
    (h : evaluateCandidateAdmission request = .ok result) (hs : result.status = .admitted)
    (hp : request.profile ≠ .smoke) :
    ∃ primary byMetric g, Passes request primary byMetric g ∧
      calibratedPairs request.settings request.requiredMetrics primary =
        .ok result.requiredPairCount := by
  obtain ⟨hsafe, henv, hcomplete, primary, hprimary⟩ := evaluate_checked h hs
  simp only [evaluateCandidateAdmission, hsafe, henv, hcomplete, hprimary, hp, Bool.not_true,
    Bool.false_eq_true, ↓reduceIte] at h
  obtain ⟨n, hn, h⟩ := tryValue_admitted h hs nofun
  obtain ⟨hquiet, h⟩ := refuse_ok h hs nofun
  obtain ⟨byMetric, hreq, h⟩ := tryValue_admitted h hs nofun
  obtain ⟨hcount, hshort, g, hg, hguarded, hbenefits⟩ := judge_admitted h hs
  refine ⟨primary, byMetric, g, ⟨hp, hsafe, henv, hcomplete, hprimary, ⟨n, hn, Int.not_lt.mp hquiet⟩,
    hreq, hshort, hg, hguarded, hbenefits⟩, ?_⟩
  rw [hcount]
  exact hn

theorem Passes.admitted {request : AdmissionRequest F} {primary : MetricEvaluationInput F}
    {byMetric : AList (fun _ : String => Int)} {g : Gates F}
    (h : Passes request primary byMetric g) :
    ∃ result, evaluateCandidateAdmission request = .ok result ∧ result.status = .admitted := by
  obtain ⟨n, hn, hquiet⟩ := h.quiet
  obtain ⟨result, hjudge, hstatus, -⟩ := judge_passes n h.counts h.evaluated
    h.guarded h.benefits
  refine ⟨result, ?_, hstatus⟩
  have hreq := h.requirements
  simp only [AdmissionRequest.settings, AdmissionRequest.maximumPairs] at hn hquiet hreq
  simp only [evaluateCandidateAdmission, h.safe, h.environment, h.complete, h.declared,
    h.calibrated, tryValue, hn, hreq, Bool.not_true, Bool.false_eq_true, ↓reduceIte,
    if_neg (Int.not_lt.mpr hquiet), hjudge]

theorem evaluate_admitted_smoke {request : AdmissionRequest F} {result : AdmissionResult F}
    (h : evaluateCandidateAdmission request = .ok result) (hs : result.status = .admitted)
    (hp : request.profile = .smoke) :
    result.requiredPairCount = minimumObservations ∧ ∃ primary g, gates request primary = .ok g := by
  obtain ⟨hsafe, henv, hcomplete, primary, hprimary⟩ := evaluate_checked h hs
  simp only [evaluateCandidateAdmission, hsafe, henv, hcomplete, hprimary, hp, Bool.not_true,
    Bool.false_eq_true, ↓reduceIte] at h
  obtain ⟨hcount, -, g, hg, -⟩ := judge_admitted h hs
  refine ⟨?_, primary, g, hg⟩
  rw [hcount]
  refine max?_getD_of_forall (fun n hn => ?_)
  obtain ⟨e, he, rfl⟩ := List.mem_map.mp hn
  obtain ⟨metric, -, hmetric⟩ := List.mem_map.mp (mem_of_mem_dictOf he)
  exact (Prod.mk.inj hmetric).2.symm

/-- A metric's own requirement is checked against all counts, unless it is shadowed. -/
theorem Passes.requirement_le {request : AdmissionRequest F} {primary : MetricEvaluationInput F}
    {byMetric : AList (fun _ : String => Int)} {g : Gates F}
    (h : Passes request primary byMetric g) (hcov : Covered request)
    {other metric : MetricEvaluationInput F} {k : Int} (hother : other ∈ request.requiredMetrics)
    (hk : requiredForMetric other request.maximumPairs = .ok k)
    (hm : metric ∈ request.requiredMetrics) : k ≤ metric.completePairs := by
  rcases calibratedRequirements_ok h.requirements hother hk with hshadowed | hlookup
  · exact hcov k (.shadowed hshadowed hk) metric hm
  · obtain ⟨n, -, haligned⟩ := gates_ok h.evaluated
    have hcount : max (minimumObservations : Int) k ≤ other.baselineValues.length := by
      have hshort := List.any_eq_false.mp h.counts other hother
      simpa [hlookup] using hshort
    rw [(haligned other hother).1] at hcount
    rw [MetricEvaluationInput.completePairs, (haligned metric hm).1, (haligned metric hm).2]
    omega

def errorRate : MetricEvaluationInput ℚ where
  metricKey := "error_rate"
  scopeType := "GLOBAL"
  scopeId := "error_rate"
  policy :=
    { metricKey := "error_rate"
      direction := .lowerIsBetter
      comparisonMode := .absoluteDelta
      absoluteCap := some (1 / 100)
      minimumBenefit := 1 / 20 }
  baselineValues := [1, 1, 1]
  candidateValues := [0, 0, 0]
  aaScores := [0, 0]

/-- One metric, three pairs of arms, and an A/A calibration without any noise. -/
def threePairs : AdmissionRequest ℚ where
  candidateId := "candidate"
  evaluationRunId := "evaluation"
  profile := .autonomous
  primaryMetricKey := "error_rate"
  metrics := [errorRate]

section

local instance : Numerics ℚ := rationals

theorem errorRate_margin : regressionMargin errorRate = .ok (1, 1 / 100, 1 / 100) := by
  decide +kernel

theorem errorRate_scores : regressionScores errorRate = .ok (List.replicate 3 (-1)) := by
  decide +kernel

theorem threePairs_required :
    calibratedPairs threePairs.settings threePairs.requiredMetrics errorRate = .ok 10 := by
  decide +kernel

theorem errorRate_regression : ∃ result,
    evaluateNonRegression errorRate "evaluation" 10000 (0.95 : ℚ) = .ok result ∧
      result.passed = true := by
  have hci := Rationals.pairedBootstrapCi_replicate 2 9999
    (bootstrapSeed "evaluation" errorRate) (-1) 0.95
  simp only [evaluateNonRegression, errorRate_margin, errorRate_scores, hci, bind, Except.bind]
  exact ⟨_, rfl, by decide +kernel⟩

theorem errorRate_benefit : ∃ result,
    evaluatePrimaryBenefit errorRate "evaluation" 10000 (0.95 : ℚ) = .ok result ∧
      result.benefitPassed = some true := by
  obtain ⟨result, hresult, -⟩ := errorRate_regression
  have hscores : benefitScores errorRate = .ok (List.replicate 3 1000000000) := by decide +kernel
  have hci := Rationals.pairedBootstrapCi_replicate 2 9999
    (bootstrapSeed "evaluation" errorRate) 1000000000 0.95
  have hthreshold : calculateTransformedMinimumBenefit errorRate.policy.direction
      errorRate.policy.minimumBenefit = .ok (Rationals.log (20 / 19)) := by decide +kernel
  have hpassed : le (Rationals.log (20 / 19)) (1000000000 + epsilon) = true := by decide +kernel
  simp only [evaluatePrimaryBenefit, hresult, hscores, hci, hthreshold, bind, Except.bind]
  exact ⟨_, rfl, congrArg some hpassed⟩

theorem threePairs_gates : ∃ g, gates threePairs errorRate = .ok g ∧ g.regresses = false ∧
    g.benefits = true := by
  obtain ⟨result, hresult, hpassed⟩ := errorRate_regression
  obtain ⟨benefit, hbenefit, hbenefits⟩ := errorRate_benefit
  have hexcesses : excesses errorRate = .ok (List.replicate 3 (-101 / 100)) := by decide +kernel
  have hfamily := Rationals.pairedMaxStatisticUpperBound_replicate hexcesses (Nat.le_refl 3) rfl rfl
    "evaluation" 9999 0.95
  have hbound : lt epsilon (-101 / 100 : ℚ) = false := by decide +kernel
  refine ⟨⟨[result], benefit, -101 / 100⟩, ?_, ?_, ?_⟩
  · change ([errorRate].mapM (evaluateNonRegression · "evaluation" 10000 0.95) >>= _) = _
    rw [List.mapM_cons, hresult]
    change (evaluatePrimaryBenefit errorRate "evaluation" 10000 0.95 >>= _) = _
    rw [hbenefit]
    change (pairedMaxStatisticUpperBound [errorRate] "evaluation" (9999 + 1) 0.95 >>= _) = _
    rw [hfamily]
    rfl
  · simp only [Gates.regresses, hbound, List.any_cons, hpassed, List.any_nil]
    rfl
  · simp only [Gates.benefits, hbenefits, Option.getD_some]

theorem threePairs_requirements :
    calibratedRequirements threePairs.settings threePairs.requiredMetrics =
      .ok (dictOf [("error_rate|GLOBAL|error_rate", 3)]) := by
  have hrequired : requiredForMetric errorRate 30 = .ok 0 := by decide +kernel
  change ([errorRate].mapM (fun metric => requiredForMetric metric 30 >>= _) >>= _) = _
  rw [List.mapM_cons, hrequired]
  rfl

theorem threePairs_passes : ∃ byMetric g, Passes threePairs errorRate byMetric g := by
  obtain ⟨g, hg, hguarded, hbenefits⟩ := threePairs_gates
  exact ⟨_, g, by decide, rfl, rfl, by decide, rfl, ⟨10, threePairs_required, by decide⟩,
    threePairs_requirements, by decide +kernel, hg, hguarded, hbenefits⟩

end

end NoSQLOptimizer.Admission
