import Mathlib.Algebra.Order.Archimedean.Basic
import Mathlib.Algebra.Order.BigOperators.Group.List
import Mathlib.Algebra.Order.Floor.Ring
import Mathlib.Data.List.Sort
import Mathlib.Tactic.FieldSimp

namespace NoSQLOptimizer.Statistics

universe u

variable {K : Type u} [LinearOrder K]

/-- Every value is at most its counterpart. -/
abbrev Dominated (xs ys : List K) : Prop := List.Forall₂ (· ≤ ·) xs ys

namespace Dominated

variable {xs ys : List K}

theorem ne_nil (h : Dominated xs ys) (hne : ys ≠ []) : xs ≠ [] := by
  rintro rfl
  cases h
  exact hne rfl

theorem getD (h : Dominated xs ys) {a b : K} (hab : a ≤ b) (i : Nat) : xs.getD i a ≤ ys.getD i b := by
  induction h generalizing i with
  | nil => simpa using hab
  | cons hxy _ ih =>
    cases i with
    | zero => exact hxy
    | succ i => exact ih i

theorem getLastD (h : Dominated xs ys) {a b : K} (hab : a ≤ b) : xs.getLastD a ≤ ys.getLastD b := by
  induction h generalizing a b with
  | nil => exact hab
  | cons hxy _ ih =>
    rw [List.getLastD_cons, List.getLastD_cons]
    exact ih hxy

/-- A sorted list is the insertion of its own head. -/
theorem cons_eq_orderedInsert {b : K} {l : List K} (h : (b :: l).Pairwise (· ≤ ·)) :
    b :: l = l.orderedInsert (· ≤ ·) b := by
  cases l with
  | nil => rfl
  | cons c l =>
    rw [List.orderedInsert_cons_of_le]
    exact (List.pairwise_cons.mp h).1 c List.mem_cons_self

theorem orderedInsert (h : Dominated xs ys) (hx : xs.Pairwise (· ≤ ·)) (hy : ys.Pairwise (· ≤ ·))
    {a b : K} (hab : a ≤ b) :
    Dominated (xs.orderedInsert (· ≤ ·) a) (ys.orderedInsert (· ≤ ·) b) := by
  induction h generalizing a b with
  | nil => exact .cons hab .nil
  | @cons x y xs ys hxy hrest ih =>
    have hx' := (List.pairwise_cons.mp hx).2
    have hy' := (List.pairwise_cons.mp hy).2
    by_cases hax : a ≤ x <;> by_cases hby : b ≤ y
    · rw [List.orderedInsert_cons_of_le _ _ hax, List.orderedInsert_cons_of_le _ _ hby]
      exact .cons hab (.cons hxy hrest)
    · -- the larger list lets `b` pass further down, where `x` is still smaller
      rw [List.orderedInsert_cons_of_le _ _ hax, List.orderedInsert_of_not_le _ _ hby,
        cons_eq_orderedInsert hx]
      exact .cons (hax.trans hxy) (ih hx' hy' (hxy.trans (not_le.mp hby).le))
    · rw [List.orderedInsert_of_not_le _ _ hax, List.orderedInsert_cons_of_le _ _ hby,
        cons_eq_orderedInsert hy]
      exact .cons ((not_le.mp hax).le.trans hab) (ih hx' hy' (hab.trans hby))
    · rw [List.orderedInsert_of_not_le _ _ hax, List.orderedInsert_of_not_le _ _ hby]
      exact .cons hxy (ih hx' hy' hab)

/-- The order statistics are monotone. -/
theorem mergeSort (h : Dominated xs ys) :
    Dominated (xs.mergeSort (fun a b => decide (a ≤ b))) (ys.mergeSort (fun a b => decide (a ≤ b))) := by
  rw [List.mergeSort_eq_insertionSort (· ≤ ·), List.mergeSort_eq_insertionSort (· ≤ ·)]
  induction h with
  | nil => exact .nil
  | cons hxy _ ih =>
    exact ih.orderedInsert (List.pairwise_insertionSort _ _) (List.pairwise_insertionSort _ _) hxy

theorem zipWith_max (h : Dominated xs ys) {xs' ys' : List K} (h' : Dominated xs' ys') :
    Dominated (List.zipWith max xs xs') (List.zipWith max ys ys') := by
  induction h generalizing xs' ys' with
  | nil => exact .nil
  | cons hxy _ ih =>
    cases h' with
    | nil => exact .nil
    | cons hxy' hrest => exact .cons (max_le_max hxy hxy') (ih hrest)

/-- The same draws from both. -/
theorem drawn (h : Dominated xs ys) (row : List Nat) :
    Dominated (row.filterMap (xs[·]?)) (row.filterMap (ys[·]?)) := by
  induction row with
  | nil => exact .nil
  | cons i row ih =>
    have hlength := h.length_eq
    by_cases hi : i < xs.length
    · have hi' : i < ys.length := hlength ▸ hi
      rw [List.filterMap_cons_some (List.getElem?_eq_getElem hi),
        List.filterMap_cons_some (List.getElem?_eq_getElem hi')]
      exact .cons (h.get hi hi') ih
    · rw [List.filterMap_cons_none (List.getElem?_eq_none (not_lt.mp hi)),
        List.filterMap_cons_none (List.getElem?_eq_none (hlength ▸ not_lt.mp hi))]
      exact ih

end Dominated

variable [Field K]

def mean (values : List K) : K := values.sum / values.length

/-- Linear interpolation between the closest ranks. -/
def percentile [FloorRing K] (values : List K) (p : K) : K :=
  let sorted := values.mergeSort (fun a b => decide (a ≤ b))
  let rank (i : Nat) := sorted.getD i (sorted.getLastD 0)
  let position := (values.length - 1 : ℕ) * p / 100
  let low := rank ⌊position⌋.toNat
  low + (rank ⌈position⌉.toNat - low) * (position - ⌊position⌋)

theorem percentile_replicate [FloorRing K] (n : Nat) (c p : K) :
    percentile (List.replicate (n + 1) c) p = c := by
  have hsorted : (List.replicate (n + 1) c).mergeSort (fun a b => decide (a ≤ b)) =
      List.replicate (n + 1) c :=
    List.mergeSort_of_pairwise (List.pairwise_replicate.mpr (.inr (by simp)))
  have hrank : ∀ i, (List.replicate (n + 1) c).getD i ((List.replicate (n + 1) c).getLastD 0) = c := by
    intro i
    rw [List.getD_eq_getElem?_getD, List.getElem?_replicate]
    split
    · rfl
    · simp [List.getLastD_eq_getLast?, List.getLast?_replicate]
  simp only [percentile, hsorted, hrank, sub_self, zero_mul, add_zero]

variable [IsStrictOrderedRing K] {xs ys : List K}

theorem mean_mono (h : Dominated xs ys) : mean xs ≤ mean ys := by
  rw [mean, mean, h.length_eq]
  exact div_le_div_of_nonneg_right h.sum_le_sum (Nat.cast_nonneg _)

theorem interpolation_mono {a b a' b' t : K} (ha : a ≤ a') (hb : b ≤ b') (h0 : 0 ≤ t) (h1 : t ≤ 1) :
    a + (b - a) * t ≤ a' + (b' - a') * t := by
  have hconvex (x y : K) : x + (y - x) * t = (1 - t) * x + t * y := by ring
  rw [hconvex, hconvex]
  have hlow := mul_le_mul_of_nonneg_left ha (sub_nonneg.mpr h1)
  have hhigh := mul_le_mul_of_nonneg_left hb h0
  exact add_le_add hlow hhigh

theorem percentile_mono [FloorRing K] (h : Dominated xs ys) (p : K) :
    percentile xs p ≤ percentile ys p := by
  have hlast := h.mergeSort.getLastD (le_refl (0 : K))
  simp only [percentile, h.length_eq]
  exact interpolation_mono (h.mergeSort.getD hlast _) (h.mergeSort.getD hlast _) (Int.fract_nonneg _)
    (Int.fract_lt_one _).le

theorem mean_replicate (n : Nat) (c : K) : mean (List.replicate (n + 1) c) = c := by
  have hn : ((n + 1 : ℕ) : K) ≠ 0 := by positivity
  rw [mean, List.sum_replicate, List.length_replicate, nsmul_eq_mul]
  field_simp

end NoSQLOptimizer.Statistics
