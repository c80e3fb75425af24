import Mathlib.Data.List.Nodup
import Mathlib.Data.List.Perm.Basic
import Mathlib.Order.MinMax

namespace NoSQLOptimizer.ControlPlane

/-- A program that returns has passed through its first step. -/
theorem bind_eq_ok {ε α β : Type} {x : Except ε α} {f : α → Except ε β} {b : β} :
    (x >>= f) = .ok b ↔ ∃ a, x = .ok a ∧ f a = .ok b := by
  cases x with
  | ok a => simp [bind, Except.bind]
  | error e => simp [bind, Except.bind]

section

variable {ρ κ : Type} {key : ρ → κ} {rows : List ρ} {row : ρ}

/-- What is looked for by its key is found. -/
theorem find?_eq_some_of_key {wanted : ρ → Bool} (hnodup : (rows.map key).Nodup) (hrow : row ∈ rows)
    (hwanted : ∀ r, wanted r = true ↔ key r = key row) : rows.find? wanted = some row := by
  cases h : rows.find? wanted with
  | none => exact absurd ((hwanted row).mpr rfl) (List.find?_eq_none.mp h row hrow)
  | some r =>
    have hr : key r = key row := (hwanted r).mp (List.find?_some h)
    rw [List.inj_on_of_nodup_map hnodup (List.mem_of_find?_eq_some h) hrow hr]

/-- Under a key there is one row at most. -/
theorem filter_length_le_one_of_key [DecidableEq κ] (h : (rows.map key).Nodup) (k : κ) :
    (rows.filter (key · = k)).length ≤ 1 := by
  induction rows with
  | nil => exact Nat.zero_le 1
  | cons row rows ih =>
    obtain ⟨hrow, hrows⟩ := List.nodup_cons.mp h
    rw [List.filter_cons]
    split
    · next hk =>
      have hnone : rows.filter (key · = k) = [] := by
        apply List.filter_eq_nil_iff.mpr
        intro other hother hk'
        exact hrow (List.mem_map.mpr
          ⟨other, hother, (of_decide_eq_true hk').trans (of_decide_eq_true hk).symm⟩)
      rw [hnone]
      exact Nat.le_refl 1
    · exact ih hrows

/-- One more row, under a key that no row has. -/
theorem nodup_map_concat (hnodup : (rows.map key).Nodup) (hnew : ∀ r ∈ rows, key r ≠ key row) :
    ((rows ++ [row]).map key).Nodup := by
  rw [List.map_append]
  refine List.nodup_append.mpr ⟨hnodup, List.nodup_singleton _, ?_⟩
  intro k hk k' hk' heq
  obtain ⟨r, hr, rfl⟩ := List.mem_map.mp hk
  obtain rfl := List.mem_singleton.mp hk'
  exact hnew r hr heq

/-- The number past all that rows have is past each of them. -/
theorem lt_foldr_max (number : ρ → Nat) (h : row ∈ rows) :
    number row < rows.foldr (fun r n => max (number r + 1) n) 0 := by
  induction rows with
  | nil => cases h
  | cons r rows ih =>
    rw [List.foldr_cons]
    rcases List.mem_cons.mp h with rfl | h
    · exact lt_max_of_lt_left (Nat.lt_succ_self _)
    · exact lt_max_of_lt_right (ih h)

/-- Rows in the order of a key that no two of them share can be listed in one way only. -/
theorem eq_of_perm_of_key [LinearOrder κ] (key : ρ → κ) {rows rows' : List ρ}
    (h : rows.Perm rows') (hnodup : (rows'.map key).Nodup)
    (hrows : rows.Pairwise (fun a b => key a ≤ key b))
    (hrows' : rows'.Pairwise (fun a b => key a ≤ key b)) : rows = rows' := by
  apply h.eq_of_pairwise _ hrows hrows'
  intro a b ha hb hab hba
  exact List.inj_on_of_nodup_map hnodup (h.mem_iff.mp ha) hb (le_antisymm hab hba)

end

end NoSQLOptimizer.ControlPlane
