import Mathlib.Algebra.Ring.Nat
import Mathlib.Data.List.Basic

namespace NoSQLOptimizer.Encoding

section

variable {α : Type} {sep : α} {xs ys : List (List α)} {a a' b b' : List α}

/-- Where neither first part holds the separator, the first separators fall together. -/
theorem append_sep_inj (ha : sep ∉ a) (ha' : sep ∉ a') :
    a ++ sep :: b = a' ++ sep :: b' ↔ a = a' ∧ b = b' := by
  constructor
  · induction a generalizing a' with
    | nil =>
      cases a' with
      | nil => exact fun h => ⟨rfl, (List.cons.inj h).2⟩
      | cons c a' => exact fun h => absurd (List.cons.inj h).1 (List.ne_of_not_mem_cons ha')
    | cons c a ih =>
      cases a' with
      | nil => exact fun h => absurd (List.cons.inj h).1.symm (List.ne_of_not_mem_cons ha)
      | cons c' a' =>
        intro h
        obtain ⟨hc, htail⟩ := List.cons.inj h
        obtain ⟨hparts, hrest⟩ :=
          ih (List.not_mem_of_not_mem_cons ha) (List.not_mem_of_not_mem_cons ha') htail
        exact ⟨by rw [hc, hparts], hrest⟩
  · rintro ⟨rfl, rfl⟩
    rfl

theorem intercalate_cons_of_ne_nil (h : xs ≠ []) :
    List.intercalate [sep] (a :: xs) = a ++ sep :: List.intercalate [sep] xs := by
  cases xs with
  | nil => exact absurd rfl h
  | cons b xs => rw [List.intercalate_cons_cons, List.append_assoc, List.singleton_append]

theorem intercalate_injective_of_not_mem (hlength : xs.length = ys.length)
    (hxs : ∀ x ∈ xs, sep ∉ x) (hys : ∀ y ∈ ys, sep ∉ y)
    (h : List.intercalate [sep] xs = List.intercalate [sep] ys) : xs = ys := by
  induction xs generalizing ys with
  | nil => exact (List.length_eq_zero_iff.mp hlength.symm).symm
  | cons a xs ih =>
    cases ys with
    | nil => cases hlength
    | cons b ys =>
      have htail : xs.length = ys.length := Nat.succ.inj hlength
      rcases eq_or_ne xs [] with rfl | hne
      · obtain rfl := List.length_eq_zero_iff.mp htail.symm
        simpa only [List.intercalate_singleton, List.cons.injEq, and_true] using h
      · have hne' : ys ≠ [] := fun hnil => hne (List.length_eq_zero_iff.mp (by rw [htail, hnil]; rfl))
        rw [intercalate_cons_of_ne_nil hne, intercalate_cons_of_ne_nil hne',
          append_sep_inj (hxs a List.mem_cons_self) (hys b List.mem_cons_self)] at h
        obtain ⟨rfl, h⟩ := h
        rw [ih htail (fun x hx => hxs x (List.mem_cons_of_mem _ hx))
          (fun y hy => hys y (List.mem_cons_of_mem _ hy)) h]

/-- A separator within a part, taken for the one that follows the part. -/
theorem intercalate_shift {c : List α} (pre post : List (List α)) :
    List.intercalate [sep] (pre ++ (a ++ sep :: b) :: c :: post) =
      List.intercalate [sep] (pre ++ a :: (b ++ sep :: c) :: post) := by
  induction pre with
  | nil =>
    rw [List.nil_append, List.nil_append, intercalate_cons_of_ne_nil (List.cons_ne_nil c post),
      intercalate_cons_of_ne_nil (List.cons_ne_nil _ post)]
    cases post with
    | nil => rw [List.intercalate_singleton, List.intercalate_singleton, List.append_assoc,
        List.cons_append]
    | cons d post =>
      rw [intercalate_cons_of_ne_nil (List.cons_ne_nil d post),
        intercalate_cons_of_ne_nil (List.cons_ne_nil d post)]
      simp only [List.append_assoc, List.cons_append]
  | cons p pre ih =>
    rw [List.cons_append, List.cons_append, intercalate_cons_of_ne_nil (by simp),
      intercalate_cons_of_ne_nil (by simp), ih]

theorem exists_intercalate_eq {x : List α} (hx : x ∈ xs) (hsep : sep ∈ x)
    (hlength : 2 ≤ xs.length) : ∃ ys, ys.length = xs.length ∧
      List.intercalate [sep] ys = List.intercalate [sep] xs ∧ ys ≠ xs := by
  obtain ⟨pre, post, rfl⟩ := List.append_of_mem hx
  obtain ⟨before, after, rfl⟩ := List.append_of_mem hsep
  cases post with
  | cons c post =>
    refine ⟨pre ++ before :: (after ++ sep :: c) :: post, ?_, (intercalate_shift pre post).symm, ?_⟩
    · simp only [List.length_append, List.length_cons]
    · intro heq
      have hpart := (List.cons.inj (List.append_cancel_left heq)).1
      simp at hpart
  | nil =>
    rcases List.eq_nil_or_concat pre with rfl | ⟨pre, p, rfl⟩
    · simp at hlength
    · refine ⟨pre ++ (p ++ sep :: before) :: after :: [], ?_, ?_, ?_⟩
      · simp only [List.concat_eq_append, List.length_append, List.length_cons, List.length_nil]
      · rw [intercalate_shift, List.concat_eq_append, List.append_assoc, List.singleton_append]
      · intro heq
        rw [List.concat_eq_append, List.append_assoc, List.singleton_append] at heq
        have hpart := (List.cons.inj (List.append_cancel_left heq)).1
        simp at hpart

variable [DecidableEq α]

/-- As many separators as there are joints and besides within the parts. -/
theorem count_intercalate : (List.intercalate [sep] xs).count sep =
    (xs.length - 1) + (xs.map (List.count sep)).sum := by
  induction xs with
  | nil => rfl
  | cons a xs ih =>
    cases xs with
    | nil => simp only [List.intercalate_singleton, List.length_singleton, List.map_cons,
        List.map_nil, List.sum_cons, List.sum_nil, Nat.sub_self, Nat.add_zero, Nat.zero_add]
    | cons b xs =>
      rw [intercalate_cons_of_ne_nil (List.cons_ne_nil b xs), List.count_append,
        List.count_cons_self, ih, List.map_cons (a := a), List.sum_cons]
      simp only [List.length_cons]
      omega

/-- Parts without the separator are read off a text that is joined from as many parts. -/
theorem intercalate_injective (hlength : xs.length = ys.length) (hxs : ∀ x ∈ xs, sep ∉ x)
    (h : List.intercalate [sep] xs = List.intercalate [sep] ys) : xs = ys := by
  apply intercalate_injective_of_not_mem hlength hxs ?_ h
  have hcount := congrArg (List.count sep) h
  rw [count_intercalate, count_intercalate, hlength, Nat.add_left_cancel_iff] at hcount
  have hzero : (xs.map (List.count sep)).sum = 0 := by
    rw [List.sum_eq_zero_iff_forall_eq_nat, List.forall_mem_map]
    exact fun x hx => List.count_eq_zero_of_not_mem (hxs x hx)
  rw [hzero, eq_comm, List.sum_eq_zero_iff_forall_eq_nat, List.forall_mem_map] at hcount
  exact fun y hy => List.count_eq_zero.mp (hcount y hy)

/-- Two parts or more can be read off their text just where none of them holds the separator. -/
theorem intercalate_unique_iff (hlength : 2 ≤ xs.length) :
    (∀ ys : List (List α), ys.length = xs.length →
      List.intercalate [sep] ys = List.intercalate [sep] xs → ys = xs) ↔ ∀ x ∈ xs, sep ∉ x := by
  constructor
  · intro h x hx hsep
    obtain ⟨ys, hys, heq, hne⟩ := exists_intercalate_eq hx hsep hlength
    exact hne (h ys hys heq)
  · exact fun h ys hys heq => (intercalate_injective hys.symm h heq.symm).symm

end

end NoSQLOptimizer.Encoding
