import NoSQLOptimizer.Workloads.Integrity

namespace NoSQLOptimizer.Workloads

/-- The observations of a shape. -/
def ofShape (rows : List MetricObservation) (id : ShapeId) : List MetricObservation :=
  rows.filter (fun o => o.queryShape.any (·.id = id))

/-- What was observed of a shape under a name. -/
def valuesOf (rows : List MetricObservation) (id : ShapeId) (name : String) : List ℚ :=
  ((ofShape rows id).filter (·.metricName = name)).map (·.metricValue)

def ShapeTotals.observeAll (d : ShapeTotals) (rows : List MetricObservation) : ShapeTotals :=
  rows.foldl (fun d o => d.observe o.metricName o.metricValue) d

/-- All that was observed of a shape, added up. -/
def totalsOf (rows : List MetricObservation) (shape : QueryShape) : ShapeTotals :=
  ShapeTotals.observeAll { shape := shape } (ofShape rows shape.id)

section Observe

variable (d : ShapeTotals) (name : String) (value : ℚ)

theorem operationCount_observe : (d.observe name value).operationCount =
    if name = "operation_count" then add d.operationCount (truncate value)
    else d.operationCount := by
  unfold ShapeTotals.observe
  split_ifs <;> rfl

theorem execution_observe : (d.observe name value).execution =
    if name = "aggregate_execution_time_ms" then add d.execution value else d.execution := by
  unfold ShapeTotals.observe
  split_ifs <;> first | rfl | (subst name; contradiction)

theorem manual_observe : (d.observe name value).manual =
    (d.manual || decide (name = "manually_critical" ∧ 0 < value)) := by
  unfold ShapeTotals.observe
  split_ifs <;> simp_all

end Observe

section

variable {d : ShapeTotals} {rows : List MetricObservation}

theorem operationCount_observeAll : ((d.observeAll rows).operationCount.getD 0 =
    d.operationCount.getD 0 +
      ((rows.filter (·.metricName = "operation_count")).map (truncate ·.metricValue)).sum) ∧
    ((d.observeAll rows).operationCount.isSome = true ↔ d.operationCount.isSome = true ∨
      ∃ o ∈ rows, o.metricName = "operation_count") := by
  induction rows generalizing d with
  | nil => simp [ShapeTotals.observeAll]
  | cons o rows ih =>
    obtain ⟨hsum, hsome⟩ := @ih (d.observe o.metricName o.metricValue)
    rw [operationCount_observe] at hsum hsome
    rw [ShapeTotals.observeAll, List.foldl_cons]
    by_cases hname : o.metricName = "operation_count"
    · rw [if_pos hname] at hsum hsome
      refine ⟨hsum.trans ?_, hsome.trans ?_⟩
      · simp [hname, add, add_assoc]
      · simp [hname, add]
    · rw [if_neg hname] at hsum hsome
      refine ⟨hsum.trans ?_, hsome.trans ?_⟩
      · simp [hname]
      · simp [hname]

theorem execution_observeAll : (d.observeAll rows).execution.getD 0 = d.execution.getD 0 +
    ((rows.filter (·.metricName = "aggregate_execution_time_ms")).map (·.metricValue)).sum := by
  induction rows generalizing d with
  | nil => simp [ShapeTotals.observeAll]
  | cons o rows ih =>
    have hsum := @ih (d.observe o.metricName o.metricValue)
    rw [execution_observe] at hsum
    rw [ShapeTotals.observeAll, List.foldl_cons]
    refine hsum.trans ?_
    by_cases hname : o.metricName = "aggregate_execution_time_ms" <;>
      simp [hname, add, add_assoc]

theorem manual_observeAll : (d.observeAll rows).manual = true ↔
    d.manual = true ∨ ∃ o ∈ rows, o.metricName = "manually_critical" ∧ 0 < o.metricValue := by
  induction rows generalizing d with
  | nil => simp [ShapeTotals.observeAll]
  | cons o rows ih =>
    have hmanual := @ih (d.observe o.metricName o.metricValue)
    rw [manual_observe] at hmanual
    rw [ShapeTotals.observeAll, List.foldl_cons]
    refine hmanual.trans ?_
    simp [or_assoc]

theorem shape_observeAll : (d.observeAll rows).shape = d.shape := by
  induction rows generalizing d with
  | nil => rfl
  | cons o rows ih => exact ih.trans (shape_observe d o.metricName o.metricValue)

end

section

variable {rows : List MetricObservation} {o : MetricObservation} {a : QueryShape}
  {d : ShapeTotals}

theorem mem_ofShape {id : ShapeId} : o ∈ ofShape rows id ↔ o ∈ rows ∧
    ∃ a ∈ o.queryShape, a.id = id := by
  rw [ofShape, List.mem_filter, Option.any_eq_true]
  simp [Option.mem_def]

theorem ofShape_append (rows' : List MetricObservation) (id : ShapeId) :
    ofShape (rows ++ rows') id = ofShape rows id ++ ofShape rows' id :=
  List.filter_append ..

theorem totalsOf_concat_self {b : QueryShape} (h : o.queryShape = some b) (hid : b.id = a.id) :
    totalsOf (rows ++ [o]) a = (totalsOf rows a).observe o.metricName o.metricValue := by
  have hself : ofShape [o] a.id = [o] := by simp [ofShape, h, hid]
  rw [totalsOf, ofShape_append, hself, ShapeTotals.observeAll, List.foldl_append]
  rfl

theorem totalsOf_concat_other (h : ∀ b ∈ o.queryShape, b.id ≠ a.id) :
    totalsOf (rows ++ [o]) a = totalsOf rows a := by
  have hother : ofShape [o] a.id = [] := by
    rw [List.eq_nil_iff_forall_not_mem]
    intro o' ho'
    obtain ⟨ho', b, hb, hid⟩ := mem_ofShape.mp ho'
    obtain rfl := List.mem_singleton.mp ho'
    exact h b hb hid
  rw [totalsOf, ofShape_append, hother, List.append_nil]
  rfl

/-- What is grouped after another observation. -/
theorem groupShape_cases {name : String} {value : ℚ} {grouped : List ShapeTotals}
    (hgrouped : Grouped grouped) (h : d ∈ groupShape a name value grouped) :
    (d ∈ grouped ∧ d.shape.id ≠ a.id) ∨
      (∃ d' ∈ grouped, d'.shape.id = a.id ∧ d = d'.observe name value) ∨
      ((∀ d' ∈ grouped, d'.shape.id ≠ a.id) ∧ d = ShapeTotals.observe { shape := a } name value) := by
  fun_induction groupShape a name value grouped with
  | case1 =>
    obtain rfl := List.mem_singleton.mp h
    exact .inr (.inr ⟨(fun d' hd' => by cases hd'), rfl⟩)
  | case2 d₀ grouped heq =>
    obtain ⟨hhead, -⟩ := List.pairwise_cons.mp hgrouped
    rcases List.mem_cons.mp h with rfl | h
    · exact .inr (.inl ⟨d₀, List.mem_cons_self, heq, rfl⟩)
    · exact .inl ⟨List.mem_cons_of_mem _ h, fun hid => hhead d h (heq.trans hid.symm)⟩
  | case3 d₀ grouped hne ih =>
    obtain ⟨-, htail⟩ := List.pairwise_cons.mp hgrouped
    rcases List.mem_cons.mp h with rfl | h
    · exact .inl ⟨List.mem_cons_self, hne⟩
    rcases ih htail h with ⟨hd, hid⟩ | ⟨d', hd', hid, rfl⟩ | ⟨hnone, rfl⟩
    · exact .inl ⟨List.mem_cons_of_mem _ hd, hid⟩
    · exact .inr (.inl ⟨d', List.mem_cons_of_mem _ hd', hid, rfl⟩)
    · refine .inr (.inr ⟨fun d' hd' => ?_, rfl⟩)
      rcases List.mem_cons.mp hd' with rfl | hd'
      · exact hne
      · exact hnone d' hd'

theorem exists_mem_groupShape (name : String) (value : ℚ) (grouped : List ShapeTotals) :
    ∃ d ∈ groupShape a name value grouped, d.shape.id = a.id := by
  fun_induction groupShape a name value grouped with
  | case1 => exact ⟨_, List.mem_cons_self, by simp⟩
  | case2 d grouped heq => exact ⟨_, List.mem_cons_self, by simpa using heq⟩
  | case3 d grouped _ ih =>
    obtain ⟨d', hd', hid⟩ := ih
    exact ⟨d', List.mem_cons_of_mem _ hd', hid⟩

theorem mem_groupShape_of_mem (name : String) (value : ℚ) {grouped : List ShapeTotals}
    (h : d ∈ grouped) : ∃ d' ∈ groupShape a name value grouped, d'.shape.id = d.shape.id := by
  fun_induction groupShape a name value grouped with
  | case1 => cases h
  | case2 d₀ grouped heq =>
    rcases List.mem_cons.mp h with rfl | h
    · exact ⟨_, List.mem_cons_self, by simp⟩
    · exact ⟨d, List.mem_cons_of_mem _ h, rfl⟩
  | case3 d₀ grouped _ ih =>
    rcases List.mem_cons.mp h with rfl | h
    · exact ⟨d, List.mem_cons_self, rfl⟩
    · obtain ⟨d', hd', hid⟩ := ih h
      exact ⟨d', List.mem_cons_of_mem _ hd', hid⟩

/-- Every shape that was observed is grouped. -/
theorem exists_mem_foldl (ho : o ∈ rows) (ha : o.queryShape = some a) :
    ∃ d ∈ rows.foldl groupObservation [], d.shape.id = a.id := by
  induction rows using List.reverseRecOn with
  | nil => cases ho
  | append_singleton rows o' ih =>
    rw [List.foldl_append, List.foldl_cons, List.foldl_nil, groupObservation]
    rcases List.mem_append.mp ho with ho | ho
    · obtain ⟨d, hd, hid⟩ := ih ho
      cases ho' : o'.queryShape with
      | none => exact ⟨d, hd, hid⟩
      | some b =>
        obtain ⟨d', hd', hid'⟩ := mem_groupShape_of_mem (a := b) o'.metricName o'.metricValue hd
        exact ⟨d', hd', hid'.trans hid⟩
    · obtain rfl := List.mem_singleton.mp ho
      rw [ha]
      exact exists_mem_groupShape _ _ _

/-- What the loop groups of a shape is all that was observed of it. -/
theorem eq_totalsOf (h : d ∈ rows.foldl groupObservation []) : d = totalsOf rows d.shape := by
  induction rows using List.reverseRecOn generalizing d with
  | nil => cases h
  | append_singleton rows o ih =>
    rw [List.foldl_append, List.foldl_cons, List.foldl_nil, groupObservation] at h
    cases ho : o.queryShape with
    | none =>
      rw [ho] at h
      rw [totalsOf_concat_other (fun b hb => by rw [ho] at hb; cases hb)]
      exact ih h
    | some b =>
      rw [ho] at h
      rcases groupShape_cases (Grouped.foldl .nil) h with ⟨hd, hid⟩ | ⟨d', hd', hid, rfl⟩ |
        ⟨hnone, rfl⟩
      · rw [totalsOf_concat_other (fun c hc => ?_)]
        · exact ih hd
        · rw [ho] at hc
          obtain rfl := Option.mem_some_iff.mp hc
          exact hid.symm
      · rw [shape_observe, totalsOf_concat_self ho hid.symm, ← ih hd']
      · rw [shape_observe, totalsOf_concat_self ho rfl]
        have hnew : ofShape rows b.id = [] := by
          rw [List.eq_nil_iff_forall_not_mem]
          intro o' ho'
          obtain ⟨ho', c, hc, hid⟩ := mem_ofShape.mp ho'
          obtain ⟨d', hd', hid'⟩ := exists_mem_foldl ho' hc
          exact hnone d' hd' (hid'.trans hid)
        rw [totalsOf, hnew]
        rfl

end

end NoSQLOptimizer.Workloads
