import Mathlib.Algebra.Order.Field.Basic
import Mathlib.Algebra.Order.Monoid.WithTop
import Mathlib.Data.List.Forall2
import NoSQLOptimizer.ControlPlane.Rows
import NoSQLOptimizer.Monitoring.WorkloadShift

namespace NoSQLOptimizer.Monitoring

open ControlPlane (bind_eq_ok)

structure MonitoringPolicy where
  baselineSeconds : ℤ := 10 * 60
  monitoringSeconds : ℤ := 15 * 60
  windowSeconds : ℤ := 60
  sustainedRegressionWindows : ℤ := 3
  protectedP99RegressionRatio : ℚ := 6 / 5
  catastrophicP99Ratio : ℚ := 3
  workloadTvdThreshold : ℚ := 1 / 5

/-- The metrics that the monitor looks at. -/
structure MetricSnapshot where
  p99LatencyMs : Option ℚ
  errorCount : ℤ
  timeoutCount : ℤ
  deriving DecidableEq

structure MonitoringWindow where
  metrics : MetricSnapshot
  workloadDistribution : Distribution
  replicaHealthy : Bool := true
  deriving DecidableEq

structure MonitoringDecision where
  catastrophicP99 : Bool
  newErrors : Bool
  newTimeouts : Bool
  replicaUnhealthy : Bool
  sustainedProtectedRegression : Bool
  workloadComparable : Bool
  workloadShiftDetected : Bool
  deriving DecidableEq

def MonitoringDecision.rollbackRequired (d : MonitoringDecision) : Bool :=
  d.catastrophicP99 || d.newErrors || d.newTimeouts || d.replicaUnhealthy ||
    (d.sustainedProtectedRegression && d.workloadComparable)

/-- A monitor; its constructor refuses other policies. -/
structure PostDeploymentMonitor where
  policy : MonitoringPolicy := {}
  baseline_window : policy.windowSeconds ≤ policy.baselineSeconds := by decide
  monitoring_window : policy.windowSeconds ≤ policy.monitoringSeconds := by decide
  sustained_pos : 1 ≤ policy.sustainedRegressionWindows := by decide

/-- The monitor of the default policy. -/
def PostDeploymentMonitor.byDefault : PostDeploymentMonitor := {}

/-- `_average`. -/
def average (values : List (Option ℚ)) : ℚ :=
  let numbers := values.filterMap id
  if numbers = [] then 0 else numbers.sum / numbers.length

/-- `_ratio`. -/
def ratio (value : Option ℚ) (baseline : ℚ) : WithTop ℚ :=
  match value with
  | none => 0
  | some value =>
    if baseline ≤ 0 ∧ 0 < value then ⊤
    else if 0 < baseline then ((value / baseline : ℚ) : WithTop ℚ)
    else 0

/-- `max(..)`, which refuses an empty sequence. -/
def maximum (values : List ℤ) : Except Error ℤ :=
  match values.max? with
  | some value => .ok value
  | none => .error (.value "max() iterable argument is empty")

/-- `windows[-1]`. -/
def latest (windows : List MonitoringWindow) : Except Error MonitoringWindow :=
  match windows.getLast? with
  | some window => .ok window
  | none => .error (.index "tuple index out of range")

/-- `windows[-n:]`, of a positive `n`. -/
def suffix (n : ℤ) (windows : List MonitoringWindow) : List MonitoringWindow :=
  windows.drop (windows.length - n.toNat)

namespace PostDeploymentMonitor

variable (M : PostDeploymentMonitor)

/-- The windows that count towards a sustained regression. -/
def regressionWindows (baselineP99 : ℚ) (observed : List MonitoringWindow) : ℕ :=
  (suffix M.policy.sustainedRegressionWindows observed).countP
    (fun w => M.policy.protectedP99RegressionRatio ≤ ratio w.metrics.p99LatencyMs baselineP99)

/-- The facts of a decision, from what was computed of the baseline and the workloads. -/
def facts (baselineP99 : ℚ) (baselineErrors baselineTimeouts : ℤ) (workloadDistance : ℚ)
    (observed : List MonitoringWindow) : MonitoringDecision where
  catastrophicP99 := observed.any
    (fun w => M.policy.catastrophicP99Ratio ≤ ratio w.metrics.p99LatencyMs baselineP99)
  newErrors := observed.any (fun w => baselineErrors < w.metrics.errorCount)
  newTimeouts := observed.any (fun w => baselineTimeouts < w.metrics.timeoutCount)
  replicaUnhealthy := observed.any (fun w => !w.replicaHealthy)
  sustainedProtectedRegression :=
    M.policy.sustainedRegressionWindows ≤ M.regressionWindows baselineP99 observed
  workloadComparable := workloadDistance < M.policy.workloadTvdThreshold
  workloadShiftDetected := !decide (workloadDistance < M.policy.workloadTvdThreshold)

/-- `_decide`. -/
def decision (baseline observed : List MonitoringWindow) : Except Error MonitoringDecision := do
  let baselineP99 := average (baseline.map (·.metrics.p99LatencyMs))
  let baselineErrors ← maximum (baseline.map (·.metrics.errorCount))
  let baselineTimeouts ← maximum (baseline.map (·.metrics.timeoutCount))
  let last ← latest observed
  let reference ← latest baseline
  let distance ← totalVariationDistance reference.workloadDistribution last.workloadDistribution
  return M.facts baselineP99 baselineErrors baselineTimeouts distance observed

end PostDeploymentMonitor

/-- The window `v` is no better than `w`, of the same workload. -/
structure NoBetter (w v : MonitoringWindow) : Prop where
  p99 : ∀ a ∈ w.metrics.p99LatencyMs, ∃ b ∈ v.metrics.p99LatencyMs, a ≤ b
  errors : w.metrics.errorCount ≤ v.metrics.errorCount
  timeouts : w.metrics.timeoutCount ≤ v.metrics.timeoutCount
  replica : v.replicaHealthy = true → w.replicaHealthy = true
  workload : v.workloadDistribution = w.workloadDistribution

/-- The ratios are those of a regression, as the default ones are, or no latency is negative. -/
def Sensible (P : MonitoringPolicy) (windows : List MonitoringWindow) : Prop :=
  (0 < P.protectedP99RegressionRatio ∧ 0 < P.catastrophicP99Ratio) ∨
    ∀ w ∈ windows, ∀ b ∈ w.metrics.p99LatencyMs, 0 ≤ b

section Forall

variable {α β : Type} {R : α → β → Prop} {l : List α} {l' : List β} {p : α → Bool} {q : β → Bool}

theorem any_of_forall₂ (h : List.Forall₂ R l l') (hp : ∀ a b, R a b → b ∈ l' → p a = true → q b = true)
    (ha : l.any p = true) : l'.any q = true := by
  induction h with
  | nil => exact ha
  | @cons a b l l' hab h ih =>
    rw [List.any_cons, Bool.or_eq_true] at ha ⊢
    rcases ha with ha | ha
    · exact .inl (hp a b hab List.mem_cons_self ha)
    · exact .inr (ih (fun a b hab hb => hp a b hab (List.mem_cons_of_mem _ hb)) ha)

theorem countP_le_of_forall₂ (h : List.Forall₂ R l l')
    (hp : ∀ a b, R a b → b ∈ l' → p a = true → q b = true) : l.countP p ≤ l'.countP q := by
  induction h with
  | nil => exact le_refl 0
  | @cons a b l l' hab h ih =>
    have htail := ih (fun a b hab hb => hp a b hab (List.mem_cons_of_mem _ hb))
    rw [List.countP_cons, List.countP_cons]
    by_cases ha : p a = true
    · rw [if_pos ha, if_pos (hp a b hab List.mem_cons_self ha)]
      exact Nat.succ_le_succ htail
    · rw [if_neg ha]
      exact htail.trans (Nat.le_add_right _ _)

theorem getLast?_of_forall₂ (h : List.Forall₂ R l l') {a : α} (ha : l.getLast? = some a) :
    ∃ b, l'.getLast? = some b ∧ R a b := by
  induction h with
  | nil => cases ha
  | @cons a' b l l' hab h ih =>
    cases h with
    | nil =>
      cases ha
      exact ⟨b, rfl, hab⟩
    | cons hab' h' =>
      rw [List.getLast?_cons_cons] at ha ⊢
      exact ih ha

end Forall

section

variable {M : PostDeploymentMonitor} {baseline first second : List MonitoringWindow}
  {w v : MonitoringWindow} {threshold base : ℚ}

theorem ratio_nonneg (h : ∀ b ∈ v.metrics.p99LatencyMs, 0 ≤ b) (base : ℚ) :
    0 ≤ ratio v.metrics.p99LatencyMs base := by
  unfold ratio
  split
  · exact le_refl _
  next value hvalue =>
    split
    · exact le_top
    split
    next hbase =>
      exact_mod_cast div_nonneg (h value hvalue) hbase.le
    · exact le_refl _

/-- A latency that is no better has no lower ratio. -/
theorem NoBetter.ratio (h : NoBetter w v)
    (hsensible : 0 < threshold ∨ ∀ b ∈ v.metrics.p99LatencyMs, 0 ≤ b)
    (hw : threshold ≤ ratio w.metrics.p99LatencyMs base) :
    threshold ≤ ratio v.metrics.p99LatencyMs base := by
  cases ha : w.metrics.p99LatencyMs with
  | none =>
    rw [ha] at hw
    have hzero : (threshold : WithTop ℚ) ≤ 0 := hw
    have hthreshold : threshold ≤ 0 := by exact_mod_cast hzero
    rcases hsensible with hpos | hnonneg
    · exact absurd hthreshold hpos.not_ge
    · exact hw.trans (ratio_nonneg hnonneg base)
  | some a =>
    obtain ⟨b, hb, hab⟩ := h.p99 a ha
    rw [Option.mem_def] at hb
    rw [ha] at hw
    rw [hb]
    simp only [Monitoring.ratio] at hw ⊢
    by_cases hbase : 0 < base
    · rw [if_neg (fun h => h.1.not_gt hbase), if_pos hbase] at hw ⊢
      have hw : threshold ≤ a / base := by exact_mod_cast hw
      exact_mod_cast hw.trans (div_le_div_of_nonneg_right hab hbase.le)
    · rw [if_neg hbase] at hw ⊢
      by_cases hbpos : 0 < b
      · rw [if_pos ⟨not_lt.mp hbase, hbpos⟩]
        exact le_top
      · rw [if_neg (fun h => hbpos h.2)]
        rwa [if_neg (fun h => hbpos (h.2.trans_le hab))] at hw

theorem suffix_forall₂ (h : List.Forall₂ NoBetter first second) (n : ℤ) :
    List.Forall₂ NoBetter (suffix n first) (suffix n second) := by
  rw [suffix, suffix, h.length_eq]
  exact List.forall₂_drop _ h

theorem latest_eq_ok : latest first = .ok w ↔ first.getLast? = some w := by
  unfold latest
  split <;> simp_all

/-- What the decision is made of. -/
theorem decision_eq_ok {d : MonitoringDecision} : M.decision baseline first = .ok d ↔
    ∃ errors timeouts last reference distance,
      maximum (baseline.map (·.metrics.errorCount)) = .ok errors ∧
      maximum (baseline.map (·.metrics.timeoutCount)) = .ok timeouts ∧
      first.getLast? = some last ∧ latest baseline = .ok reference ∧
      totalVariationDistance reference.workloadDistribution last.workloadDistribution =
        .ok distance ∧
      M.facts (average (baseline.map (·.metrics.p99LatencyMs))) errors timeouts distance first =
        d := by
  simp only [PostDeploymentMonitor.decision, bind_eq_ok, latest_eq_ok, pure, Except.pure,
    Except.ok.injEq]
  constructor
  · rintro ⟨errors, he, timeouts, ht, last, hl, reference, hr, distance, hdistance, hd⟩
    exact ⟨errors, timeouts, last, reference, distance, he, ht, hl, hr, hdistance, hd⟩
  · rintro ⟨errors, timeouts, last, reference, distance, he, ht, hl, hr, hdistance, hd⟩
    exact ⟨errors, he, timeouts, ht, last, hl, reference, hr, distance, hdistance, hd⟩

theorem facts_monotone {errors timeouts : ℤ} {distance : ℚ} (hsensible : Sensible M.policy second)
    (h : List.Forall₂ NoBetter first second)
    (hrollback : (M.facts base errors timeouts distance first).rollbackRequired = true) :
    (M.facts base errors timeouts distance second).rollbackRequired = true := by
  have hratio (threshold : ℚ) (hthreshold : (0 < M.policy.protectedP99RegressionRatio ∧
      0 < M.policy.catastrophicP99Ratio) → 0 < threshold) (w v : MonitoringWindow) (hwv : NoBetter w v)
      (hv : v ∈ second) (hw : decide (threshold ≤ ratio w.metrics.p99LatencyMs base) = true) :
      decide (threshold ≤ ratio v.metrics.p99LatencyMs base) = true :=
    decide_eq_true (hwv.ratio (hsensible.imp hthreshold (fun hall => hall v hv))
      (of_decide_eq_true hw))
  have hregressions : M.regressionWindows base first ≤ M.regressionWindows base second :=
    countP_le_of_forall₂ (suffix_forall₂ h _) (fun w v hwv hv =>
      hratio _ And.left w v hwv (List.mem_of_mem_drop hv))
  simp only [MonitoringDecision.rollbackRequired, PostDeploymentMonitor.facts, Bool.or_eq_true,
    Bool.and_eq_true, decide_eq_true_eq] at hrollback ⊢
  rcases hrollback with (((hcatastrophic | herrors) | htimeouts) | hreplica) | ⟨hsustained, hcomparable⟩
  · exact .inl (.inl (.inl (.inl (any_of_forall₂ h (hratio _ And.right) hcatastrophic))))
  · refine .inl (.inl (.inl (.inr (any_of_forall₂ h (fun w v hwv _ hw => ?_) herrors))))
    exact decide_eq_true ((of_decide_eq_true hw).trans_le hwv.errors)
  · refine .inl (.inl (.inr (any_of_forall₂ h (fun w v hwv _ hw => ?_) htimeouts)))
    exact decide_eq_true ((of_decide_eq_true hw).trans_le hwv.timeouts)
  · refine .inl (.inr (any_of_forall₂ h (fun w v hwv _ hw => ?_) hreplica))
    rw [Bool.not_eq_true'] at hw ⊢
    exact Bool.eq_false_of_not_eq_true (fun hv => by simp [hwv.replica hv] at hw)
  · exact .inr ⟨hsustained.trans (by exact_mod_cast hregressions), hcomparable⟩

/-- Worse windows of the same workload never take a rollback back. -/
theorem rollback_monotone (hsensible : Sensible M.policy second)
    (h : List.Forall₂ NoBetter first second) {d : MonitoringDecision}
    (hd : M.decision baseline first = .ok d) (hrollback : d.rollbackRequired = true) :
    ∃ d', M.decision baseline second = .ok d' ∧ d'.rollbackRequired = true := by
  obtain ⟨errors, timeouts, last, reference, distance, he, ht, hl, hr, hdistance, rfl⟩ :=
    decision_eq_ok.mp hd
  obtain ⟨last', hl', hworse⟩ := getLast?_of_forall₂ h hl
  rw [← hworse.workload] at hdistance
  exact ⟨_, decision_eq_ok.mpr ⟨errors, timeouts, last', reference, distance, he, ht, hl', hr,
    hdistance, rfl⟩, facts_monotone hsensible h hrollback⟩

end

section

def reads (p99 : Option ℚ) : MonitoringWindow where
  metrics := ⟨p99, 0, 0⟩
  workloadDistribution := [⟨"read", 1⟩]

theorem rollback_monotone_reads :
    List.Forall₂ NoBetter [reads (some 120), reads (some 130), reads (some 125)]
      [reads (some 120), reads (some 131), reads (some 500)] ∧
    ∃ d, PostDeploymentMonitor.decision {} [reads (some 100), reads none]
        [reads (some 120), reads (some 131), reads (some 500)] = .ok d ∧
      d.rollbackRequired = true := by
  have hworse (a b : ℚ) (hab : a ≤ b) : NoBetter (reads (some a)) (reads (some b)) :=
    ⟨fun c hc => ⟨b, rfl, (Option.mem_some_iff.mp hc) ▸ hab⟩, le_refl _, le_refl _, id, rfl⟩
  have hall : List.Forall₂ NoBetter [reads (some 120), reads (some 130), reads (some 125)]
      [reads (some 120), reads (some 131), reads (some 500)] :=
    .cons (hworse _ _ (by decide +kernel)) (.cons (hworse _ _ (by decide +kernel))
      (.cons (hworse _ _ (by decide +kernel)) .nil))
  refine ⟨hall, rollback_monotone (d := ⟨false, false, false, false, true, true, false⟩)
    (.inl ⟨by decide +kernel, by decide +kernel⟩) hall ?_ rfl⟩
  decide +kernel

end

end NoSQLOptimizer.Monitoring
