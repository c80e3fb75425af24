import Mathlib.Data.List.Perm.Basic
import NoSQLOptimizer.Admission.Pairs

namespace NoSQLOptimizer.Admission

open ControlPlane (bind_eq_ok)
open Numerics

variable {F : Type}

/-- The element-wise maximum does not depend on the order of its arguments; `0.0` and `-0.0` are one
number. -/
class LawfulMaximum (F : Type) [Numerics F] : Prop where
  comm : ∀ a b : F, maximum a b = maximum b a
  assoc : ∀ a b c : F, maximum (maximum a b) c = maximum a (maximum b c)

/-- The metric whose requirement stays under the key. -/
def lastUnder (key : String) (metrics : List (MetricEvaluationInput F)) :
    Option (MetricEvaluationInput F) :=
  (metrics.filter (·.key = key)).getLast?

/-- What is compared of two results. -/
def AdmissionResult.summary (result : AdmissionResult F) : AdmissionStatus × List String × Int :=
  (result.status, result.reasonCodes, result.requiredPairCount)

section Lists

variable {α β : Type}

/-- The fold of a nonempty list, from its first element on. -/
def reduce (op : α → α → α) : List α → Option α
  | [] => none
  | a :: as => some (as.foldl op a)

theorem reduce_perm {op : α → α → α} (hcomm : ∀ a b, op a b = op b a)
    (hassoc : ∀ a b c, op (op a b) c = op a (op b c)) {as bs : List α} (h : as.Perm bs) :
    reduce op as = reduce op bs := by
  have : Std.Commutative op := ⟨hcomm⟩
  have : Std.Associative op := ⟨hassoc⟩
  induction h with
  | nil => rfl
  | cons a h _ => exact congrArg some h.foldl_op_eq
  | swap a b as =>
    rw [reduce, reduce, List.foldl_cons, List.foldl_cons, hcomm]
  | trans _ _ ih ih' => exact ih.trans ih'

theorem mapM_isOk {f : α → Except PyError β} {as : List α} :
    (∃ bs, as.mapM f = .ok bs) ↔ ∀ a ∈ as, ∃ b, f a = .ok b := by
  constructor
  · rintro ⟨bs, h⟩ a ha
    obtain ⟨b, -, hb⟩ := Forall₂.exists_right (mapM_ok.mp h) ha
    exact ⟨b, hb⟩
  · intro h
    induction as with
    | nil => exact ⟨[], rfl⟩
    | cons a as ih =>
      obtain ⟨b, hb⟩ := h a List.mem_cons_self
      obtain ⟨bs, hbs⟩ := ih (fun a' ha' => h a' (List.mem_cons_of_mem a ha'))
      exact ⟨b :: bs, mapM_ok.mpr (.cons hb (mapM_ok.mp hbs))⟩

/-- Of permuted items the results are permuted. -/
theorem mapM_perm {f : α → Except PyError β} {as as' : List α} {bs : List β} (h : as'.Perm as)
    (hbs : as.mapM f = .ok bs) : ∃ bs', as'.mapM f = .ok bs' ∧ bs'.Perm bs := by
  obtain ⟨bs', hbs'⟩ := mapM_isOk.mpr (fun a ha => mapM_isOk.mp ⟨bs, hbs⟩ a (h.mem_iff.mp ha))
  have hmap {as : List α} {bs : List β} (h : as.mapM f = .ok bs) : as.map f = bs.map .ok := by
    induction mapM_ok.mp h with
    | nil => rfl
    | cons hab hrest ih => rw [List.map_cons, List.map_cons, hab, ih (mapM_ok.mpr hrest)]
  have hinj : Function.Injective (Except.ok : β → Except PyError β) := fun _ _ => Except.ok.inj
  have hoks : (bs'.map Except.ok).Perm (bs.map (Except.ok : β → Except PyError β)) := by
    rw [← hmap hbs, ← hmap hbs']
    exact h.map f
  exact ⟨bs', hbs', (List.map_perm_map_iff hinj).mp hoks⟩

theorem any_perm {p : α → Bool} {as bs : List α} (h : as.Perm bs) : as.any p = bs.any p := by
  rw [Bool.eq_iff_iff, List.any_eq_true, List.any_eq_true]
  exact exists_congr (fun a => and_congr_left (fun _ => h.mem_iff))

end Lists

/-- Of the items under a key the last one is found. -/
theorem lookup_dictOf {items : List (String × Int)} {k : String} :
    (dictOf items).lookup k = ((items.filter (·.1 = k)).getLast?).map (·.2) := by
  have hfold (d : AList (fun _ : String => Int)) :
      (items.foldl (fun dict item => dict.insert item.1 item.2) d).lookup k =
        (((items.filter (·.1 = k)).getLast?).map (·.2)).or (d.lookup k) := by
    induction items generalizing d with
    | nil => rfl
    | cons item items ih =>
      rw [List.foldl_cons, ih]
      by_cases hk : item.1 = k
      · rw [List.filter_cons_of_pos (by simpa using hk), List.getLast?_cons, hk, AList.lookup_insert]
        cases (items.filter (·.1 = k)).getLast? <;> rfl
      · rw [List.filter_cons_of_neg (by simpa using hk), AList.lookup_insert_ne (Ne.symm hk)]
  rw [dictOf, hfold]
  cases ((items.filter (·.1 = k)).getLast?).map (·.2) <;> rfl

theorem lookup_dictOf_key {metrics : List (MetricEvaluationInput F)}
    (weight : MetricEvaluationInput F → Int) (k : String) :
    (dictOf (metrics.map (fun metric => (metric.key, weight metric)))).lookup k =
      (lastUnder k metrics).map weight := by
  rw [lookup_dictOf, List.filter_map, List.getLast?_map, Option.map_map]
  rfl

/-- Requests that differ in the order of their metrics only; which metric is the primary one, and which
one's requirement stays under each key, is the same. -/
structure Reordered (r r' : AdmissionRequest F) : Prop where
  rest : r' = { r with metrics := r'.metrics }
  perm : r'.metrics.Perm r.metrics
  primary : r'.primary = r.primary
  last : ∀ key, lastUnder key r'.requiredMetrics = lastUnder key r.requiredMetrics

section

variable {r r' : AdmissionRequest F}

theorem Reordered.symm (h : Reordered r r') : Reordered r' r := by
  refine ⟨?_, h.perm.symm, h.primary.symm, fun key => (h.last key).symm⟩
  rw [h.rest]

theorem Reordered.required (h : Reordered r r') : r'.requiredMetrics.Perm r.requiredMetrics :=
  h.perm.filter _

theorem incomplete_perm {metrics metrics' : List (MetricEvaluationInput F)}
    (h : metrics'.Perm metrics) : incomplete metrics' = incomplete metrics :=
  any_perm h

theorem foldl_max_perm {items items' : List Int} (h : items'.Perm items) (a : Int) :
    items'.foldl max a = items.foldl max a := by
  have hle {xs ys : List Int} (h : xs.Perm ys) : xs.foldl max a ≤ ys.foldl max a := by
    obtain ⟨hstart, hall⟩ := foldl_max_le.mp (le_refl (ys.foldl max a))
    exact foldl_max_le.mpr ⟨hstart, fun x hx => hall x (h.mem_iff.mp hx)⟩
  exact le_antisymm (hle h) (hle h.symm)

theorem short_reordered {byMetric byMetric' : AList (fun _ : String => Int)}
    (h : Reordered r r') (hlookup : ∀ key, byMetric'.lookup key = byMetric.lookup key) :
    short byMetric' r'.requiredMetrics = short byMetric r.requiredMetrics := by
  rw [short, any_perm h.required, short]
  simp only [hlookup]

variable [Numerics F]

theorem calibratedPairs_perm {settings : ProfileSettings F}
    {metrics metrics' : List (MetricEvaluationInput F)} {primary : MetricEvaluationInput F} {n : Int}
    (h : metrics'.Perm metrics) (hn : calibratedPairs settings metrics primary = .ok n) :
    calibratedPairs settings metrics' primary = .ok n := by
  unfold calibratedPairs at hn ⊢
  obtain ⟨requirements, hrequirements, hn⟩ := bind_eq_ok.mp hn
  obtain ⟨forPrimary, hforPrimary, hn⟩ := bind_eq_ok.mp hn
  obtain ⟨requirements', hrequirements', hperm⟩ := mapM_perm h hrequirements
  simp only [hrequirements', hforPrimary, bind, Except.bind]
  rw [← hn]
  exact congrArg Except.ok (foldl_max_perm (hperm.append_right _) _)

/-- A metric's own requirement. -/
def weight (maximum : Nat) (metric : MetricEvaluationInput F) : Int :=
  max (minimumObservations : Int) ((requiredForMetric metric maximum).toOption.getD 0)

theorem calibratedRequirements_eq {settings : ProfileSettings F}
    {metrics : List (MetricEvaluationInput F)} {byMetric : AList (fun _ : String => Int)}
    (h : calibratedRequirements settings metrics = .ok byMetric) :
    byMetric = dictOf (metrics.map (fun metric =>
      (metric.key, weight (settings.maximumCandidatePairs.getD 0) metric))) := by
  unfold calibratedRequirements at h
  obtain ⟨items, hitems, h⟩ := bind_eq_ok.mp h
  cases h
  congr 1
  have hall := mapM_ok.mp hitems
  clear hitems h
  induction hall with
  | nil => rfl
  | cons hitem _ ih =>
    obtain ⟨n, hn, hitem⟩ := bind_eq_ok.mp hitem
    cases hitem
    rw [List.map_cons, weight, hn, ih]
    rfl

theorem calibratedRequirements_perm {settings : ProfileSettings F}
    {metrics metrics' : List (MetricEvaluationInput F)} {byMetric : AList (fun _ : String => Int)}
    (h : metrics'.Perm metrics) (hby : calibratedRequirements settings metrics = .ok byMetric) :
    ∃ byMetric', calibratedRequirements settings metrics' = .ok byMetric' := by
  unfold calibratedRequirements at hby ⊢
  obtain ⟨items, hitems, -⟩ := bind_eq_ok.mp hby
  obtain ⟨items', hitems', -⟩ := mapM_perm h hitems
  dsimp only
  rw [hitems']
  exact ⟨_, rfl⟩

/-- Every requirement of a SMOKE evaluation is three pairs. -/
theorem smokePairs {p : BenchmarkProfile} (hsmoke : p = .smoke)
    (metrics : List (MetricEvaluationInput F)) :
    ((uniformRequirements (profiles p : ProfileSettings F) metrics).entries.map (·.2)).max?.getD
      (minimumObservations : Int) = minimumObservations := by
  refine max?_getD_of_forall (fun n hn => ?_)
  obtain ⟨e, he, rfl⟩ := List.mem_map.mp hn
  obtain ⟨metric, -, hmetric⟩ := List.mem_map.mp (mem_of_mem_dictOf he)
  rw [hsmoke] at hmetric
  exact (Prod.mk.inj hmetric).2.symm

variable [LawfulMaximum F]

theorem zipWith_maximum_comm (as bs : List F) :
    List.zipWith maximum as bs = List.zipWith maximum bs as :=
  List.zipWith_comm_of_comm LawfulMaximum.comm

theorem zipWith_maximum_assoc (as bs cs : List F) :
    List.zipWith maximum (List.zipWith maximum as bs) cs =
      List.zipWith maximum as (List.zipWith maximum bs cs) := by
  induction as generalizing bs cs with
  | nil => rfl
  | cons a as ih =>
    cases bs with
    | nil => rfl
    | cons b bs =>
      cases cs with
      | nil => rfl
      | cons c cs =>
        simp only [List.zipWith_cons_cons, ih, LawfulMaximum.assoc]

/-- The joint bound is that of the family, in whatever order it is listed. -/
theorem pairedMaxStatisticUpperBound_perm {family family' : List (MetricEvaluationInput F)}
    (h : family'.Perm family) {evaluationRunId : String} {samples : Nat} {confidence bound : F}
    (hbound : pairedMaxStatisticUpperBound family evaluationRunId samples confidence = .ok bound) :
    pairedMaxStatisticUpperBound family' evaluationRunId samples confidence = .ok bound := by
  obtain ⟨n, hn, haligned⟩ := family_aligned hbound
  have haligned' : ∀ metric ∈ family', metric.baselineValues.length = n ∧
      metric.candidateValues.length = n := fun metric hm => haligned metric (h.mem_iff.mp hm)
  have hguard {first : MetricEvaluationInput F} {rest : List (MetricEvaluationInput F)}
      (hall : ∀ metric ∈ first :: rest, metric.baselineValues.length = n ∧
        metric.candidateValues.length = n) :
      (decide (first.baselineValues.length < minimumObservations) || (first :: rest).any (fun metric =>
        metric.baselineValues.length != first.baselineValues.length ||
          metric.candidateValues.length != first.baselineValues.length)) = false := by
    have hfirst := (hall first List.mem_cons_self).1
    rw [hfirst, Bool.or_eq_false_iff, decide_eq_false_iff_not, List.any_eq_false]
    refine ⟨Nat.not_lt.mpr hn, fun metric hm => ?_⟩
    rw [(hall metric hm).1, (hall metric hm).2]
    simp
  cases family with
  | nil => cases hbound
  | cons first rest =>
    cases family' with
    | nil => exact absurd h.nil_eq (by simp)
    | cons first' rest' =>
      simp only [pairedMaxStatisticUpperBound, hguard haligned, hguard haligned', if_false,
        Bool.false_eq_true] at hbound ⊢
      obtain ⟨a, ha, hbound⟩ := bind_eq_ok.mp hbound
      obtain ⟨as, has, hbound⟩ := bind_eq_ok.mp hbound
      have hall : (first :: rest).mapM excesses = .ok (a :: as) :=
        mapM_ok.mpr (.cons ha (mapM_ok.mp has))
      obtain ⟨bs, hbs, hperm⟩ := mapM_perm h hall
      cases mapM_ok.mp hbs with
      | @cons _ b _ bs hb hrest =>
        rw [hb, mapM_ok.mpr hrest]
        rw [← hbound]
        have hlength : first'.baselineValues.length = first.baselineValues.length := by
          rw [(haligned' first' List.mem_cons_self).1, (haligned first List.mem_cons_self).1]
        rw [hlength]
        have hreduce := reduce_perm zipWith_maximum_comm zipWith_maximum_assoc
          (hperm.map (resampledMeans · (integers F (digest F (evaluationRunId ++
            "|family-max-bootstrap")) first.baselineValues.length samples)))
        rw [List.map_cons, List.map_cons, reduce, reduce, List.foldl_map, List.foldl_map] at hreduce
        exact congrArg (fun maxima => Except.ok (percentile maxima (confidence * 100.0)))
          (Option.some.inj hreduce)

theorem gates_perm {primary : MetricEvaluationInput F} {g : Gates F} (h : Reordered r r')
    (hg : gates r primary = .ok g) : ∃ g', gates r' primary = .ok g' ∧ g'.regresses = g.regresses ∧
      g'.benefits = g.benefits ∧ g'.familyUpperBound = g.familyUpperBound := by
  have hrun : r'.evaluationRunId = r.evaluationRunId := by rw [h.rest]
  have hprofile : r'.profile = r.profile := by rw [h.rest]
  unfold gates at hg ⊢
  obtain ⟨guarded, hguarded, hg⟩ := bind_eq_ok.mp hg
  obtain ⟨primaryResult, hprimary, hg⟩ := bind_eq_ok.mp hg
  obtain ⟨bound, hbound, hg⟩ := bind_eq_ok.mp hg
  cases hg
  obtain ⟨guarded', hguarded', hperm⟩ := mapM_perm h.required hguarded
  have hbound' := pairedMaxStatisticUpperBound_perm h.required hbound
  simp only [hrun, hprofile, hguarded', hprimary, hbound', bind, Except.bind]
  exact ⟨_, rfl, congrArg (· || lt epsilon bound) (any_perm hperm), rfl, rfl⟩

/-- What both computations return is what follows the block, or what is returned for a `ValueError`. -/
theorem tryValue_both {α α' β β' : Type} {x : Except PyError α} {x' : Except PyError α'}
    {handled b : β} {handled' b' : β'} {next : α → Except PyError β}
    {next' : α' → Except PyError β'} (h : tryValue x handled next = .ok b)
    (h' : tryValue x' handled' next' = .ok b')
    (hiff : (∃ a, x = .ok a) ↔ ∃ a', x' = .ok a') :
    (∃ a a', x = .ok a ∧ x' = .ok a' ∧ next a = .ok b ∧ next' a' = .ok b') ∨
      (handled = b ∧ handled' = b') := by
  rcases tryValue_ok.mp h with ⟨a, ha, hb⟩ | ⟨herror, hb⟩
  · obtain ⟨a', ha'⟩ := hiff.mp ⟨a, ha⟩
    rcases tryValue_ok.mp h' with ⟨a'', ha'', hb'⟩ | ⟨herror', -⟩
    · exact .inl ⟨a, a'', ha, ha'', hb, hb'⟩
    · rw [ha'] at herror'
      cases herror'
  · rcases tryValue_ok.mp h' with ⟨a', ha', -⟩ | ⟨-, hb'⟩
    · obtain ⟨a, ha⟩ := hiff.mpr ⟨a', ha'⟩
      rw [ha] at herror
      cases herror
    · exact .inr ⟨hb, hb'⟩

theorem judge_reordered {primary : MetricEvaluationInput F} {n : Int}
    {byMetric byMetric' : AList (fun _ : String => Int)} {x x' : AdmissionResult F}
    (h : Reordered r r') (hlookup : ∀ key, byMetric'.lookup key = byMetric.lookup key)
    (hx : judge r primary n byMetric = .ok x) (hx' : judge r' primary n byMetric' = .ok x') :
    x'.summary = x.summary := by
  unfold judge at hx hx'
  rw [short_reordered h hlookup] at hx'
  split_ifs at hx hx' with hshort
  · cases hx
    cases hx'
    rfl
  · have hiff : (∃ g, gates r primary = .ok g) ↔ ∃ g', gates r' primary = .ok g' := by
      constructor
      · rintro ⟨g, hg⟩
        obtain ⟨g', hg', -⟩ := gates_perm h hg
        exact ⟨g', hg'⟩
      · rintro ⟨g', hg'⟩
        obtain ⟨g, hg, -⟩ := gates_perm h.symm hg'
        exact ⟨g, hg⟩
    rcases tryValue_both hx hx' hiff with ⟨g, g', hg, hg', hx, hx'⟩ | ⟨hx, hx'⟩
    · obtain ⟨g'', hg'', hregresses, hbenefits, hbound⟩ := gates_perm h hg
      obtain rfl := Except.ok.inj (hg'.symm.trans hg'')
      rw [hregresses, hbenefits, hbound] at hx'
      split_ifs at hx hx' <;>
      · cases hx
        cases hx'
        rfl
    · cases hx
      cases hx'
      rfl

/-- The order of the metrics does not matter, as long as the first required one with the primary key is
the same, and the last required one under each joined key. -/
theorem summary_reordered {x x' : AdmissionResult F} (h : Reordered r r')
    (hx : evaluateCandidateAdmission r = .ok x) (hx' : evaluateCandidateAdmission r' = .ok x') :
    x'.summary = x.summary := by
  have hsafe : r'.safetyInvariantsSafe = r.safetyInvariantsSafe := by rw [h.rest]
  have henvironment : r'.environmentValid = r.environmentValid := by rw [h.rest]
  have hprofile : r'.profile = r.profile := by rw [h.rest]
  unfold evaluateCandidateAdmission at hx hx'
  simp only [hsafe, henvironment, hprofile, incomplete_perm h.required, h.primary] at hx'
  have hdone {y y' : AdmissionResult F} (hy : (.ok y : Except PyError _) = .ok x)
      (hy' : (.ok y' : Except PyError _) = .ok x') (hsame : y'.summary = y.summary) :
      x'.summary = x.summary := by
    cases hy
    cases hy'
    exact hsame
  dsimp only at hx hx'
  by_cases hunsafe : (!r.safetyInvariantsSafe) = true
  · rw [if_pos hunsafe] at hx hx'
    exact hdone hx hx' rfl
  rw [if_neg hunsafe] at hx hx'
  by_cases hinvalid : (!r.environmentValid) = true
  · rw [if_pos hinvalid] at hx hx'
    exact hdone hx hx' rfl
  rw [if_neg hinvalid] at hx hx'
  by_cases hincomplete : incomplete r.requiredMetrics = true
  · rw [if_pos hincomplete] at hx hx'
    exact hdone hx hx' rfl
  rw [if_neg hincomplete] at hx hx'
  cases hprimary : r.primary with
  | none =>
    rw [hprimary] at hx hx'
    exact hdone hx hx' rfl
  | some primary =>
    rw [hprimary] at hx hx'
    dsimp only at hx hx'
    by_cases hsmoke : r.profile = .smoke
    · rw [if_pos hsmoke] at hx hx'
      rw [smokePairs hsmoke] at hx hx'
      refine judge_reordered h (fun key => ?_) hx hx'
      rw [uniformRequirements, uniformRequirements, lookup_dictOf_key (fun _ => _),
        lookup_dictOf_key (fun _ => _), h.last]
    · rw [if_neg hsmoke] at hx hx'
      have hiff : (∃ n, calibratedPairs (profiles r.profile) r.requiredMetrics primary = .ok n) ↔
          ∃ n, calibratedPairs (profiles r.profile) r'.requiredMetrics primary = .ok n :=
        ⟨fun ⟨n, hn⟩ => ⟨n, calibratedPairs_perm h.required hn⟩,
          fun ⟨n, hn⟩ => ⟨n, calibratedPairs_perm h.required.symm hn⟩⟩
      rcases tryValue_both hx hx' hiff with ⟨n, n', hn, hn', hx, hx'⟩ | ⟨hx, hx'⟩
      · obtain rfl := Except.ok.inj ((calibratedPairs_perm h.required hn).symm.trans hn')
        by_cases hnoise : ((profiles r.profile : ProfileSettings F).maximumCandidatePairs.getD 0 : Nat) < n
        · rw [if_pos hnoise] at hx hx'
          exact hdone hx hx' rfl
        rw [if_neg hnoise] at hx hx'
        have hiff' : (∃ d, calibratedRequirements (profiles r.profile) r.requiredMetrics = .ok d) ↔
            ∃ d, calibratedRequirements (profiles r.profile) r'.requiredMetrics = .ok d :=
          ⟨fun ⟨d, hd⟩ => calibratedRequirements_perm h.required hd,
            fun ⟨d, hd⟩ => calibratedRequirements_perm h.required.symm hd⟩
        rcases tryValue_both hx hx' hiff' with ⟨d, d', hd, hd', hx, hx'⟩ | ⟨hx, hx'⟩
        · refine judge_reordered h (fun key => ?_) hx hx'
          rw [calibratedRequirements_eq hd, calibratedRequirements_eq hd', lookup_dictOf_key,
            lookup_dictOf_key, h.last]
        · cases hx
          cases hx'
          rfl
      · cases hx
        cases hx'
        rfl

end

theorem lastUnder_swap {a b : MetricEvaluationInput F} (h : a.key ≠ b.key) (key : String) :
    lastUnder key [b, a] = lastUnder key [a, b] := by
  by_cases ha : a.key = key
  · have hb : b.key ≠ key := fun hb => h (ha.trans hb.symm)
    simp [lastUnder, ha, hb]
  · by_cases hb : b.key = key <;> simp [lastUnder, ha, hb]

section

local instance : Numerics ℚ := rationals

local instance : LawfulMaximum ℚ := ⟨max_comm, max_assoc⟩

/-- A latency of one scope, with its A/A calibration. -/
def latencyOf (scopeId : String) (cap : ℚ) (aaScores : List ℚ) : MetricEvaluationInput ℚ where
  metricKey := "p95_latency_ms"
  scopeType := "QUERY_SHAPE"
  scopeId := scopeId
  policy :=
    { metricKey := "p95_latency_ms"
      direction := .lowerIsBetter
      comparisonMode := .absoluteDelta
      absoluteCap := some cap
      minimumBenefit := 1 / 20 }
  baselineValues := [1]
  candidateValues := [0]
  aaScores := aaScores

def latencies (primaryMetricKey : String) (metrics : List (MetricEvaluationInput ℚ)) :
    AdmissionRequest ℚ where
  candidateId := "candidate"
  evaluationRunId := "evaluation"
  profile := .autonomous
  primaryMetricKey := primaryMetricKey
  metrics := metrics

def summaryOf (request : AdmissionRequest ℚ) : Option (AdmissionStatus × List String × Int) :=
  (evaluateCandidateAdmission request).toOption.map (·.summary)

theorem exists_of_summaryOf {request : AdmissionRequest ℚ}
    {summary : AdmissionStatus × List String × Int} (h : summaryOf request = some summary) :
    ∃ x, evaluateCandidateAdmission request = .ok x ∧ x.summary = summary := by
  unfold summaryOf at h
  cases hx : evaluateCandidateAdmission request with
  | error e =>
    rw [hx] at h
    cases h
  | ok x =>
    rw [hx] at h
    exact ⟨x, rfl, Option.some.inj h⟩

theorem summary_reordered_latencies : ∃ x x',
    evaluateCandidateAdmission (latencies "error_rate" [errorRate, latencyOf "reads" 1000 [-1, 0, 1]]) =
      .ok x ∧
    evaluateCandidateAdmission (latencies "error_rate" [latencyOf "reads" 1000 [-1, 0, 1], errorRate]) =
      .ok x' ∧ x'.summary = x.summary := by
  obtain ⟨x, hx, -⟩ := exists_of_summaryOf (show summaryOf (latencies "error_rate"
    [errorRate, latencyOf "reads" 1000 [-1, 0, 1]]) =
      some (.inconclusiveMissingMetric, ["INSUFFICIENT_CANDIDATE_PAIRS"], 10) by decide +kernel)
  obtain ⟨x', hx', -⟩ := exists_of_summaryOf (show summaryOf (latencies "error_rate"
    [latencyOf "reads" 1000 [-1, 0, 1], errorRate]) =
      some (.inconclusiveMissingMetric, ["INSUFFICIENT_CANDIDATE_PAIRS"], 10) by decide +kernel)
  have hreordered : Reordered
      (latencies "error_rate" [errorRate, latencyOf "reads" 1000 [-1, 0, 1]])
      (latencies "error_rate" [latencyOf "reads" 1000 [-1, 0, 1], errorRate]) := by
    refine ⟨rfl, .swap _ _ _, rfl, ?_⟩
    exact lastUnder_swap (a := errorRate) (b := latencyOf "reads" 1000 [-1, 0, 1]) (by decide +kernel)
  exact ⟨x, x', hx, hx', summary_reordered hreordered hx hx'⟩

/-- With two scopes of the primary metric, the one that is listed first is what counts. -/
theorem summary_ne_permuted : ∃ x x',
    evaluateCandidateAdmission (latencies "p95_latency_ms"
      [latencyOf "writes" 1 [0, 0], latencyOf "reads" 1000 [-1, 0, 1]]) = .ok x ∧
    evaluateCandidateAdmission (latencies "p95_latency_ms"
      [latencyOf "reads" 1000 [-1, 0, 1], latencyOf "writes" 1 [0, 0]]) = .ok x' ∧
    x.status = .inconclusiveMissingMetric ∧ x'.status = .inconclusiveNoise := by
  obtain ⟨x, hx, hsummary⟩ := exists_of_summaryOf (show summaryOf (latencies "p95_latency_ms"
    [latencyOf "writes" 1 [0, 0], latencyOf "reads" 1000 [-1, 0, 1]]) =
      some (.inconclusiveMissingMetric, ["INSUFFICIENT_CANDIDATE_PAIRS"], 10) by decide +kernel)
  obtain ⟨x', hx', hsummary'⟩ := exists_of_summaryOf (show summaryOf (latencies "p95_latency_ms"
    [latencyOf "reads" 1000 [-1, 0, 1], latencyOf "writes" 1 [0, 0]]) =
      some (.inconclusiveNoise, ["AA_CALIBRATION_EXCEEDS_PROFILE_MAXIMUM"], 4115) by decide +kernel)
  exact ⟨x, x', hx, hx', congrArg Prod.fst hsummary, congrArg Prod.fst hsummary'⟩

end

end NoSQLOptimizer.Admission
