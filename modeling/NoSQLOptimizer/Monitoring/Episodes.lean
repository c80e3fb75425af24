import Mathlib.Data.Set.Card
import Mathlib.Order.Interval.Finset.Nat

namespace NoSQLOptimizer.Monitoring

/-- How many times in a row, up to `n` and without it. -/
def streak (p : ℕ → Prop) [DecidablePred p] : ℕ → ℕ
  | 0 => 0
  | n + 1 => if p n then streak p n + 1 else 0

/-- A maximal run. -/
structure Run (p : ℕ → Prop) (first last : ℕ) : Prop where
  le : first ≤ last
  holds : ∀ i, first ≤ i → i ≤ last → p i
  starts : first = 0 ∨ ¬ p (first - 1)
  ends : ¬ p (last + 1)

theorem Run.last_eq {p : ℕ → Prop} {first last last' : ℕ} (h : Run p first last)
    (h' : Run p first last') : last = last' := by
  rcases lt_trichotomy last last' with hlt | heq | hlt
  · have hle := h.le
    exact absurd (h'.holds (last + 1) (by omega) hlt) h.ends
  · exact heq
  · have hle := h'.le
    exact absurd (h.holds (last' + 1) (by omega) hlt) h'.ends

section

variable {p : ℕ → Prop} [DecidablePred p] {first last i k n : ℕ}

theorem streak_le (p : ℕ → Prop) [DecidablePred p] (n : ℕ) : streak p n ≤ n := by
  induction n with
  | zero => exact le_refl 0
  | succ n ih =>
    rw [streak]
    split
    · exact Nat.succ_le_succ ih
    · exact Nat.zero_le _

/-- A streak reaches back to where it began. -/
theorem holds_of_streak (h : n ≤ i + streak p n) (hi : i < n) : p i := by
  induction n with
  | zero => cases hi
  | succ n ih =>
    rw [streak] at h
    split at h
    next hn =>
      rcases Nat.lt_succ_iff_lt_or_eq.mp hi with hi | rfl
      · exact ih (by omega) hi
      · exact hn
    next => omega

/-- It does not reach further back. -/
theorem not_before_streak (h : streak p n < n) : ¬ p (n - streak p n - 1) := by
  induction n with
  | zero => cases h
  | succ n ih =>
    rw [streak] at h ⊢
    split at h
    next hn =>
      rw [if_pos hn]
      have hbefore := ih (by omega)
      rwa [Nat.add_sub_add_right]
    next hn =>
      rw [if_neg hn]
      exact hn

theorem Run.streak_first (h : Run p first last) : streak p first = 0 := by
  rcases h.starts with rfl | hbefore
  · rfl
  · cases first with
    | zero => rfl
    | succ first =>
      rw [streak]
      exact if_neg hbefore

/-- Along a run the streak counts from the run's first index. -/
theorem Run.streak_eq (h : Run p first last) (hfirst : first ≤ i) (hlast : i ≤ last) :
    first + streak p (i + 1) = i + 1 := by
  induction i, hfirst using Nat.le_induction with
  | base =>
    rw [streak, if_pos (h.holds first (le_refl _) hlast), h.streak_first]
  | succ i hfirst ih =>
    rw [streak, if_pos (h.holds (i + 1) (by omega) hlast), ← Nat.add_assoc, ih (by omega)]

/-- Where it does not go on for ever, every streak is within a run. -/
theorem exists_run (hend : ∀ j, n ≤ j → ¬ p j) (hi : 0 < streak p (i + 1)) :
    ∃ last, i ≤ last ∧ Run p (i + 1 - streak p (i + 1)) last := by
  have hle := streak_le p (i + 1)
  have hexists : ∃ j, i ≤ j ∧ ¬ p (j + 1) := ⟨max i n, le_max_left _ _, hend _ (by omega)⟩
  obtain ⟨hfind, hnot⟩ := Nat.find_spec hexists
  refine ⟨Nat.find hexists, hfind, by omega, fun j hj hjlast => ?_, ?_, hnot⟩
  · by_cases hji : j ≤ i
    · exact holds_of_streak (n := i + 1) (by omega) (by omega)
    · -- no earlier index ends the run
      have hmin := Nat.find_min hexists (m := j - 1) (by omega)
      have hj : p (j - 1 + 1) := by
        by_contra hnp
        exact hmin ⟨by omega, hnp⟩
      rwa [Nat.sub_add_cancel (by omega)] at hj
  · by_cases hfull : streak p (i + 1) = i + 1
    · exact .inl (by omega)
    · exact .inr (not_before_streak (by omega))

/-- The streak has reached `k` just where a run began that long ago. -/
theorem le_streak_iff (hend : ∀ j, n ≤ j → ¬ p j) (hk : 0 < k) : k ≤ streak p (i + 1) ↔
    ∃ first last, Run p first last ∧ first + k ≤ i + 1 ∧ i ≤ last := by
  constructor
  · intro h
    obtain ⟨last, hlast, hrun⟩ := exists_run hend (hk.trans_le h)
    have hle := streak_le p (i + 1)
    exact ⟨_, last, hrun, by omega, hlast⟩
  · rintro ⟨first, last, hrun, hfirst, hlast⟩
    have heq := hrun.streak_eq (i := i) (by omega) hlast
    omega

theorem streak_eq_iff (hend : ∀ j, n ≤ j → ¬ p j) (hk : 0 < k) : streak p (i + 1) = k ↔
    ∃ first last, Run p first last ∧ first + k = i + 1 ∧ i ≤ last := by
  constructor
  · rintro rfl
    obtain ⟨last, hlast, hrun⟩ := exists_run hend hk
    have hle := streak_le p (i + 1)
    exact ⟨_, last, hrun, by omega, hlast⟩
  · rintro ⟨first, last, hrun, hfirst, hlast⟩
    have heq := hrun.streak_eq (i := i) (by omega) hlast
    omega

/-- The indices at which a streak reaches `k` are as many as the runs of that length. -/
theorem card_streak_eq (hend : ∀ j, n ≤ j → ¬ p j) (hk : 0 < k) :
    ((Finset.range n).filter (fun i => streak p (i + 1) = k)).card =
      {r : ℕ × ℕ | Run p r.1 r.2 ∧ r.1 + k ≤ r.2 + 1}.ncard := by
  have hinj : Set.InjOn (fun r : ℕ × ℕ => r.1 + k - 1)
      {r : ℕ × ℕ | Run p r.1 r.2 ∧ r.1 + k ≤ r.2 + 1} := by
    rintro ⟨first, last⟩ ⟨hrun, -⟩ ⟨first', last'⟩ ⟨hrun', -⟩ heq
    obtain rfl : first = first' := by
      dsimp only at heq
      omega
    exact Prod.ext rfl (hrun.last_eq hrun')
  rw [← hinj.ncard_image, ← Set.ncard_coe_finset]
  congr 1
  ext i
  simp only [Finset.coe_filter, Finset.mem_range, Set.mem_ofPred_eq, Set.mem_image, Prod.exists,
    streak_eq_iff hend hk]
  constructor
  · rintro ⟨-, first, last, hrun, hfirst, hlast⟩
    exact ⟨first, last, ⟨hrun, by omega⟩, by omega⟩
  · rintro ⟨first, last, ⟨hrun, hlast⟩, rfl⟩
    refine ⟨?_, first, last, hrun, by omega, by omega⟩
    by_contra hge
    exact hend _ (not_lt.mp hge) (hrun.holds _ (by omega) (by omega))

end

end NoSQLOptimizer.Monitoring
