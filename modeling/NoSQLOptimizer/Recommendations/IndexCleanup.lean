import Mathlib.Data.List.Nodup
import Mathlib.Data.List.Sort
import Mathlib.Data.String.Basic

namespace NoSQLOptimizer.Recommendations

inductive CleanupReason
  | unused
  | duplicate
  | redundantPrefix
  | staleOptimizerOwned
  deriving DecidableEq

def CleanupReason.value : CleanupReason → String
  | unused => "UNUSED"
  | duplicate => "DUPLICATE"
  | redundantPrefix => "REDUNDANT_PREFIX"
  | staleOptimizerOwned => "STALE_OPTIMIZER_OWNED"

abbrev Keys := List (String × ℤ)

structure ObservedIndex where
  name : String
  keys : Keys
  observedUseCount : ℤ
  optimizerOwned : Bool
  deriving DecidableEq

structure IndexCleanupRecommendation where
  indexName : String
  reasons : List CleanupReason
  optimizerOwned : Bool
  deriving DecidableEq

inductive Error
  | value : String → Error
  deriving DecidableEq

/-- `_validate_indexes`. -/
structure Valid (indexes : List ObservedIndex) : Prop where
  names : (indexes.map (·.name)).Nodup
  named : ∀ i ∈ indexes, i.name ≠ ""
  keyed : ∀ i ∈ indexes, i.keys ≠ []
  counted : ∀ i ∈ indexes, 0 ≤ i.observedUseCount

instance (indexes : List ObservedIndex) : Decidable (Valid indexes) :=
  decidable_of_iff ((indexes.map (·.name)).Nodup ∧ (∀ i ∈ indexes, i.name ≠ "") ∧
    (∀ i ∈ indexes, i.keys ≠ []) ∧ ∀ i ∈ indexes, 0 ≤ i.observedUseCount)
    ⟨fun ⟨hnames, hnamed, hkeyed, hcounted⟩ => ⟨hnames, hnamed, hkeyed, hcounted⟩,
      fun h => ⟨h.names, h.named, h.keyed, h.counted⟩⟩

/-- The indexes of these keys, by name. -/
def group (indexes : List ObservedIndex) (keys : Keys) : List ObservedIndex :=
  (indexes.filter (·.keys = keys)).insertionSort (·.name ≤ ·.name)

/-- `_duplicate_groups`. -/
def duplicateGroups (indexes : List ObservedIndex) : List (List ObservedIndex) :=
  ((indexes.map (·.keys)).eraseDups.map (group indexes)).filter (1 < ·.length)

/-- Every index but the primary one. -/
def candidates (indexes : List ObservedIndex) : List ObservedIndex :=
  indexes.filter (·.name ≠ "_id_")

def extendedBy (shorter longer : ObservedIndex) : Bool :=
  shorter.keys ≠ longer.keys ∧ shorter.keys.length < longer.keys.length ∧
    longer.keys.take shorter.keys.length = shorter.keys

/-- The reasons to drop a candidate. -/
def reasons (indexes : List ObservedIndex) (index : ObservedIndex) : List CleanupReason :=
  (if index.observedUseCount = 0 then [.unused] else []) ++
  (if index.observedUseCount = 0 ∧ index.optimizerOwned then [.staleOptimizerOwned] else []) ++
  (if (duplicateGroups (candidates indexes)).any (·.tail.any (·.name = index.name)) then
    [.duplicate] else []) ++
  (if (candidates indexes).any (extendedBy index) then [.redundantPrefix] else [])

def IndexCleanupAdvisor.recommend (indexes : List ObservedIndex) :
    Except Error (List IndexCleanupRecommendation) :=
  if Valid indexes then
    .ok ((((candidates indexes).insertionSort (·.name ≤ ·.name)).filter
      (reasons indexes · ≠ [])).map (fun index => ⟨index.name,
        (reasons indexes index).insertionSort (·.value ≤ ·.value), index.optimizerOwned⟩))
  else .error (.value "index observations require unique names, keys, and non-negative use counts")

/-- What is left when all recommended indexes are dropped. -/
def retained (indexes : List ObservedIndex)
    (recommendations : List IndexCleanupRecommendation) : List ObservedIndex :=
  indexes.filter (·.name ∉ recommendations.map (·.indexName))

/-- Every index that is used is a prefix of one that is left. -/
def Covered (indexes left : List ObservedIndex) : Prop :=
  ∀ i ∈ indexes, 0 < i.observedUseCount → ∃ r ∈ left, i.keys <+: r.keys

/-- No candidate has more keys, and of the candidates with these keys it comes first. -/
def Leads (indexes : List ObservedIndex) (j : ObservedIndex) : Prop :=
  ∀ c ∈ candidates indexes, j.keys <+: c.keys → c.keys = j.keys ∧ j.name ≤ c.name

section

variable {indexes : List ObservedIndex} {i j : ObservedIndex}

theorem mem_candidates : i ∈ candidates indexes ↔ i ∈ indexes ∧ i.name ≠ "_id_" := by
  rw [candidates, List.mem_filter, decide_eq_true_eq]

theorem Valid.name_inj (h : Valid indexes) (hi : i ∈ indexes) (hj : j ∈ indexes)
    (heq : i.name = j.name) : i = j :=
  List.inj_on_of_nodup_map h.names hi hj heq

instance : Std.Total (fun a b : ObservedIndex => a.name ≤ b.name) where
  total a b := le_total a.name b.name

instance : IsTrans ObservedIndex (fun a b => a.name ≤ b.name) where
  trans _ _ _ := le_trans

theorem mem_group {keys : Keys} : i ∈ group indexes keys ↔ i ∈ indexes ∧ i.keys = keys := by
  rw [group, List.mem_insertionSort, List.mem_filter, decide_eq_true_eq]

/-- The first of a group is the one that no index of the group comes before. -/
theorem mem_tail_group (h : Valid indexes) {keys : Keys} : i ∈ (group indexes keys).tail ↔
    i ∈ group indexes keys ∧ ∃ j ∈ group indexes keys, j.name < i.name := by
  have hsorted : (group indexes keys).Pairwise (·.name ≤ ·.name) := List.pairwise_insertionSort _ _
  have hnodup : (group indexes keys).Nodup :=
    (List.perm_insertionSort _ _).nodup_iff.mpr (h.names.of_map.filter _)
  have hmem : ∀ j ∈ group indexes keys, j ∈ indexes := fun j hj => (mem_group.mp hj).1
  generalize group indexes keys = l at *
  cases l with
  | nil => simp
  | cons head l =>
    obtain ⟨hhead, -⟩ := List.pairwise_cons.mp hsorted
    obtain ⟨hnew, -⟩ := List.nodup_cons.mp hnodup
    rw [List.tail_cons]
    constructor
    · intro hi
      refine ⟨List.mem_cons_of_mem _ hi, head, List.mem_cons_self, (hhead i hi).lt_of_ne ?_⟩
      intro heq
      obtain rfl := h.name_inj (hmem head List.mem_cons_self)
        (hmem i (List.mem_cons_of_mem _ hi)) heq
      exact hnew hi
    · rintro ⟨hi, j, hj, hlt⟩
      rcases List.mem_cons.mp hi with rfl | hi
      · rcases List.mem_cons.mp hj with rfl | hj
        · exact absurd hlt (lt_irrefl _)
        · exact absurd hlt (hhead j hj).not_gt
      · exact hi

theorem Valid.candidates (h : Valid indexes) : Valid (candidates indexes) where
  names := h.names.sublist (List.filter_sublist.map _)
  named i hi := h.named i (mem_candidates.mp hi).1
  keyed i hi := h.keyed i (mem_candidates.mp hi).1
  counted i hi := h.counted i (mem_candidates.mp hi).1

/-- A duplicate has one of its keys before it by name. -/
theorem duplicate_iff (h : Valid indexes) (hj : j ∈ indexes) :
    (duplicateGroups indexes).any (·.tail.any (·.name = j.name)) = true ↔
      ∃ k ∈ indexes, k.keys = j.keys ∧ k.name < j.name := by
  simp only [List.any_eq_true, decide_eq_true_eq, duplicateGroups, List.mem_filter, List.mem_map,
    List.mem_eraseDups]
  constructor
  · rintro ⟨g, ⟨⟨keys, -, rfl⟩, -⟩, a, ha, hname⟩
    obtain ⟨ha, k, hk, hlt⟩ := (mem_tail_group h).mp ha
    obtain ⟨haMem, rfl⟩ := mem_group.mp ha
    obtain rfl := h.name_inj haMem hj hname
    exact ⟨k, (mem_group.mp hk).1, (mem_group.mp hk).2, hlt⟩
  · rintro ⟨k, hk, hkeys, hlt⟩
    have htail : j ∈ (group indexes j.keys).tail :=
      (mem_tail_group h).mpr ⟨mem_group.mpr ⟨hj, rfl⟩, k, mem_group.mpr ⟨hk, hkeys⟩, hlt⟩
    refine ⟨group indexes j.keys, ⟨⟨j.keys, ⟨j, hj, rfl⟩, rfl⟩, ?_⟩, j, htail, rfl⟩
    have hpos := List.length_pos_of_mem htail
    rw [List.length_tail] at hpos
    omega

theorem extendedBy_iff : extendedBy i j = true ↔ i.keys <+: j.keys ∧ j.keys ≠ i.keys := by
  rw [extendedBy, decide_eq_true_eq, List.prefix_iff_eq_take]
  constructor
  · rintro ⟨hne, -, htake⟩
    exact ⟨htake.symm, hne.symm⟩
  · rintro ⟨htake, hne⟩
    have hextends : i.keys <+: j.keys := List.prefix_iff_eq_take.mpr htake
    refine ⟨hne.symm, hextends.length_le.lt_of_ne (fun hlength => ?_), htake.symm⟩
    exact hne (hextends.eq_of_length hlength).symm

theorem reasons_eq_nil_iff (h : Valid indexes) (hj : j ∈ candidates indexes) :
    reasons indexes j = [] ↔ 0 < j.observedUseCount ∧ Leads indexes j := by
  have hcount : 0 ≤ j.observedUseCount := h.candidates.counted j hj
  have hparts : reasons indexes j = [] ↔ j.observedUseCount ≠ 0 ∧
      ¬ (∃ k ∈ candidates indexes, k.keys = j.keys ∧ k.name < j.name) ∧
      ¬ ∃ c ∈ candidates indexes, j.keys <+: c.keys ∧ c.keys ≠ j.keys := by
    rw [← duplicate_iff h.candidates hj]
    have hextended : (candidates indexes).any (extendedBy j) = true ↔
        ∃ c ∈ candidates indexes, j.keys <+: c.keys ∧ c.keys ≠ j.keys := by
      simp only [List.any_eq_true, extendedBy_iff]
    rw [← hextended, reasons]
    by_cases hzero : j.observedUseCount = 0
    · simp [hzero]
    · simp [hzero]
  rw [hparts]
  constructor
  · rintro ⟨hne, hfirst, hlongest⟩
    refine ⟨hcount.lt_of_ne hne.symm, fun c hc hextends => ?_⟩
    have hkeys : c.keys = j.keys := not_not.mp (fun hkeys => hlongest ⟨c, hc, hextends, hkeys⟩)
    exact ⟨hkeys, not_lt.mp (fun hlt => hfirst ⟨c, hc, hkeys, hlt⟩)⟩
  · rintro ⟨hpos, hleads⟩
    refine ⟨hpos.ne', ?_, ?_⟩
    · rintro ⟨k, hk, hkeys, hlt⟩
      exact (hleads k hk (hkeys ▸ List.prefix_refl _)).2.not_gt hlt
    · rintro ⟨c, hc, hextends, hne⟩
      exact hne (hleads c hc hextends).1

/-- What is left: the primary index, and the candidates that are used and lead. -/
theorem mem_retained_iff (h : Valid indexes) {recommendations : List IndexCleanupRecommendation}
    (hok : IndexCleanupAdvisor.recommend indexes = .ok recommendations) :
    j ∈ retained indexes recommendations ↔
      j ∈ indexes ∧ (j.name = "_id_" ∨ 0 < j.observedUseCount ∧ Leads indexes j) := by
  rw [IndexCleanupAdvisor.recommend, if_pos h] at hok
  cases hok
  rw [retained, List.mem_filter, decide_eq_true_eq]
  refine and_congr_right (fun hj => ?_)
  have hnamed : j.name ∈ ((((candidates indexes).insertionSort (·.name ≤ ·.name)).filter
      (reasons indexes · ≠ [])).map (fun index => (⟨index.name,
        (reasons indexes index).insertionSort (·.value ≤ ·.value), index.optimizerOwned⟩ :
          IndexCleanupRecommendation))).map (·.indexName) ↔
      j ∈ candidates indexes ∧ reasons indexes j ≠ [] := by
    simp only [List.map_map, List.mem_map, List.mem_filter, List.mem_insertionSort,
      decide_eq_true_eq, Function.comp_apply]
    constructor
    · rintro ⟨k, ⟨hk, hreasons⟩, hname⟩
      obtain rfl := h.name_inj (mem_candidates.mp hk).1 hj hname
      exact ⟨hk, hreasons⟩
    · rintro ⟨hk, hreasons⟩
      exact ⟨j, ⟨hk, hreasons⟩, rfl⟩
  rw [hnamed]
  by_cases hprimary : j.name = "_id_"
  · simp [mem_candidates, hprimary]
  · have hcandidate : j ∈ candidates indexes := mem_candidates.mpr ⟨hj, hprimary⟩
    rw [← reasons_eq_nil_iff h hcandidate]
    simp [hcandidate, hprimary]

/-- With all recommended indexes dropped, what is used stays covered just where each used index is
extended by the primary one, or by a used one that leads. -/
theorem covered_iff (h : Valid indexes) : ∃ recommendations,
    IndexCleanupAdvisor.recommend indexes = .ok recommendations ∧
    (Covered indexes (retained indexes recommendations) ↔
      ∀ i ∈ indexes, 0 < i.observedUseCount → ∃ j ∈ indexes, i.keys <+: j.keys ∧
        (j.name = "_id_" ∨ 0 < j.observedUseCount ∧ Leads indexes j)) := by
  refine ⟨_, if_pos h, ?_⟩
  simp only [Covered, mem_retained_iff h (if_pos h)]
  refine forall_congr' (fun i => forall_congr' (fun _ => forall_congr' (fun _ => ?_)))
  exact ⟨fun ⟨j, ⟨hj, hleft⟩, hextends⟩ => ⟨j, hj, hextends, hleft⟩,
    fun ⟨j, hj, hextends, hleft⟩ => ⟨j, ⟨hj, hleft⟩, hextends⟩⟩

end

section

def byCustomer : ObservedIndex := ⟨"customer_1", [("customer", 1)], 5, true⟩

def byCustomerAndDay (uses : ℤ) : ObservedIndex :=
  ⟨"customer_1_day_1", [("customer", 1), ("day", 1)], uses, true⟩

theorem covered_iff_used : Valid [byCustomer, byCustomerAndDay 2] ∧ ∃ recommendations,
    IndexCleanupAdvisor.recommend [byCustomer, byCustomerAndDay 2] = .ok recommendations ∧
    (Covered [byCustomer, byCustomerAndDay 2]
        (retained [byCustomer, byCustomerAndDay 2] recommendations) ↔
      ∀ i ∈ [byCustomer, byCustomerAndDay 2], 0 < i.observedUseCount →
        ∃ j ∈ [byCustomer, byCustomerAndDay 2], i.keys <+: j.keys ∧ (j.name = "_id_" ∨
          0 < j.observedUseCount ∧ Leads [byCustomer, byCustomerAndDay 2] j)) :=
  ⟨by decide +kernel, covered_iff (by decide +kernel)⟩

/-- The index that makes the other one redundant is itself not used. -/
theorem not_covered : ¬ ∀ indexes recommendations,
    IndexCleanupAdvisor.recommend indexes = .ok recommendations →
      Covered indexes (retained indexes recommendations) := by
  intro h
  have hnone : ((IndexCleanupAdvisor.recommend [byCustomer, byCustomerAndDay 0]).toOption.map
      (retained [byCustomer, byCustomerAndDay 0])) = some [] := by
    decide +kernel
  cases hok : IndexCleanupAdvisor.recommend [byCustomer, byCustomerAndDay 0] with
  | error e =>
    rw [hok] at hnone
    cases hnone
  | ok recommendations =>
    rw [hok] at hnone
    obtain ⟨r, hr, -⟩ := h _ _ hok byCustomer List.mem_cons_self (by decide)
    rw [Option.some.inj hnone] at hr
    cases hr

end

end NoSQLOptimizer.Recommendations
