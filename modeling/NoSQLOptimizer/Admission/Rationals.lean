import Mathlib.Algebra.Order.Field.Rat
import Mathlib.Data.Rat.Floor
import NoSQLOptimizer.Admission.Statistics
import NoSQLOptimizer.Statistics.Dominance

namespace NoSQLOptimizer.Admission

namespace Rationals

/-- The area hyperbolic tangent series: `log x = 2 * artanh ((x - 1) / (x + 1))`. -/
def log (x : ℚ) : ℚ :=
  let z := (x - 1) / (x + 1)
  2 * ((List.range 16).map (fun k : Nat => z ^ (2 * k + 1) / (2 * k + 1))).sum

def exp (x : ℚ) : ℚ := ((List.range 16).map (fun k => x ^ k / k.factorial)).sum

def mean (values : List ℚ) : ℚ := values.sum / values.length

/-- Exact on squares. -/
def sqrt (x : ℚ) : ℚ := x.num.toNat.sqrt / x.den.sqrt

def std (values : List ℚ) : ℚ :=
  sqrt ((values.map (fun x => (x - mean values) ^ 2)).sum / (values.length - 1 : ℕ))

/-- Linear interpolation between the closest ranks. -/
def percentile (values : List ℚ) (p : ℚ) : ℚ :=
  let sorted := values.mergeSort (fun a b => decide (a ≤ b))
  let rank (i : Nat) := sorted.getD i (sorted.getLastD 0)
  let position := (values.length - 1 : ℕ) * p / 100
  let low := rank ⌊position⌋.toNat
  low + (rank ⌈position⌉.toNat - low) * (position - ⌊position⌋)

/-- The `i`-th draw: a plain stride through the residues. -/
def draw (seed i : Nat) : Nat := seed + i * (seed + i)

def integers (seed n samples : Nat) : List (List Nat) :=
  (List.range samples).map (fun i => (List.range n).map (fun j => draw seed (i * n + j) % n))

end Rationals

/-- Exact rational arithmetic. -/
@[reducible] def rationals : Numerics ℚ where
  le a b := decide (a ≤ b)
  lt a b := decide (a < b)
  eq a b := decide (a = b)
  isFinite _ := true
  log := Rationals.log
  exp := Rationals.exp
  square x := .ok (x ^ 2)
  ceil x := .ok ⌈x⌉
  mean := Rationals.mean
  std := Rationals.std
  percentile := Rationals.percentile
  maximum := max
  integers := Rationals.integers
  digest text := (text.toList.map Char.toNat).sum

namespace Rationals

theorem mean_replicate (n : Nat) (c : ℚ) : mean (List.replicate (n + 1) c) = c :=
  Statistics.mean_replicate n c

theorem percentile_replicate (n : Nat) (c p : ℚ) : percentile (List.replicate (n + 1) c) p = c :=
  Statistics.percentile_replicate n c p

theorem resampledMeans_replicate (n seed samples : Nat) (c : ℚ) :
    @resampledMeans ℚ rationals (List.replicate (n + 1) c) (integers seed (n + 1) samples) =
      List.replicate samples c := by
  rw [List.eq_replicate_iff]
  refine ⟨by simp [resampledMeans, integers], fun x hx => ?_⟩
  obtain ⟨row, hrow, rfl⟩ := List.mem_map.mp hx
  obtain ⟨i, -, rfl⟩ := List.mem_map.mp hrow
  have hdrawn : ∀ j, (List.replicate (n + 1) c)[draw seed (i * (n + 1) + j) % (n + 1)]? = some c := by
    intro j
    rw [List.getElem?_replicate, if_pos (Nat.mod_lt _ n.succ_pos)]
  have hrow : ((List.range (n + 1)).map (fun j => draw seed (i * (n + 1) + j) % (n + 1))).filterMap
      (fun j => (List.replicate (n + 1) c)[j]?) = List.replicate (n + 1) c := by
    simp only [List.filterMap_map, Function.comp_def, hdrawn]
    rw [show (fun _ : Nat => some c) = some ∘ fun _ => c from rfl, List.filterMap_eq_map,
      List.map_const', List.length_range]
  rw [hrow]
  exact mean_replicate n c

/-- Of scores that are all the same every resample has the same mean. -/
theorem pairedBootstrapCi_replicate (n samples seed : Nat) (c confidence : ℚ) :
    @pairedBootstrapCi ℚ rationals (List.replicate (n + 1) c) (samples + 1) seed confidence =
      .ok (c, c, c) := by
  have hfinite : @finiteArray ℚ rationals (List.replicate (n + 1) c) =
      .ok (List.replicate (n + 1) c) := by
    simp [finiteArray]
  have hempty : (List.replicate (n + 1) c).isEmpty = false := by simp
  simp only [pairedBootstrapCi, hfinite, bind, Except.bind, hempty, Bool.false_eq_true, ↓reduceIte,
    List.length_replicate]
  change Except.ok (mean _, percentile (@resampledMeans ℚ rationals _ (integers seed (n + 1)
      (samples + 1))) _, percentile (@resampledMeans ℚ rationals _ (integers seed (n + 1)
      (samples + 1))) _) = _
  simp only [resampledMeans_replicate, percentile_replicate, mean_replicate]

theorem pairedMaxStatisticUpperBound_replicate {metric : MetricEvaluationInput ℚ} {n : Nat} {c : ℚ}
    (h : @excesses ℚ rationals metric = .ok (List.replicate (n + 1) c))
    (hn : minimumObservations ≤ n + 1) (hb : metric.baselineValues.length = n + 1)
    (hc : metric.candidateValues.length = n + 1) (evaluationRunId : String) (samples : Nat)
    (confidence : ℚ) :
    @pairedMaxStatisticUpperBound ℚ rationals [metric] evaluationRunId (samples + 1) confidence =
      .ok c := by
  have haligned : (decide (n + 1 < minimumObservations) || [metric].any (fun metric =>
      metric.baselineValues.length != n + 1 || metric.candidateValues.length != n + 1)) = false := by
    simp [hb, hc, hn]
  simp only [pairedMaxStatisticUpperBound, hb, haligned, h, bind, Except.bind, List.mapM_nil,
    Bool.false_eq_true, ↓reduceIte]
  change Except.ok (percentile (@resampledMeans ℚ rationals _ (integers _ (n + 1)
    (samples + 1))) _) = _
  rw [resampledMeans_replicate, percentile_replicate]

end Rationals

end NoSQLOptimizer.Admission
