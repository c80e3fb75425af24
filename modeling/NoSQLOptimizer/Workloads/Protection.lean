import NoSQLOptimizer.Workloads.Snapshots
import NoSQLOptimizer.Workloads.Totals

namespace NoSQLOptimizer.Workloads

open ControlPlane Encoding WorkloadSnapshotBuilder

/-- The shapes that were observed. -/
def shapesOf (rows : List MetricObservation) : List QueryShape :=
  (rows.filterMap (·.queryShape)).dedup

/-- A shape with its observations added up, as the builder takes it. -/
def workloadOf (rows : List MetricObservation) (shape : QueryShape) : QueryShapeWorkload where
  shapeHash := shape.shapeHash
  operationCount := ((valuesOf rows shape.id "operation_count").map truncate).sum
  executionTimeMs := (valuesOf rows shape.id "aggregate_execution_time_ms").sum
  manuallyCritical := (valuesOf rows shape.id "manually_critical").any (0 < ·)

def aggregated (rows : List MetricObservation) : List QueryShapeWorkload :=
  (shapesOf rows).map (workloadOf rows)

/-- Observations with one shape id are joined to one row of `query_shapes`. -/
def Joined (rows : List MetricObservation) : Prop :=
  ∀ o ∈ rows, ∀ o' ∈ rows, ∀ a ∈ o.queryShape, ∀ a' ∈ o'.queryShape, a.id = a'.id → a = a'

/-- Each shape has an operation count; counts and times are not negative, counts are whole, and
something was counted. -/
structure Counted (rows : List MetricObservation) : Prop where
  joined : Joined rows
  counted : ∀ a ∈ shapesOf rows, valuesOf rows a.id "operation_count" ≠ []
  counts : ∀ a ∈ shapesOf rows, ∀ v ∈ valuesOf rows a.id "operation_count", ∃ n : ℕ, v = n
  times : ∀ a ∈ shapesOf rows, ∀ v ∈ valuesOf rows a.id "aggregate_execution_time_ms", 0 ≤ v
  positive : 0 < totalOperations (aggregated rows)

/-- The same shapes, with the same counts and times in all, and manually critical alike. -/
structure SameTotals (rows rows' : List MetricObservation) : Prop where
  shapes : ∀ a, a ∈ shapesOf rows ↔ a ∈ shapesOf rows'
  counts : ∀ a ∈ shapesOf rows, (valuesOf rows a.id "operation_count").sum =
    (valuesOf rows' a.id "operation_count").sum
  times : ∀ a ∈ shapesOf rows, (valuesOf rows a.id "aggregate_execution_time_ms").sum =
    (valuesOf rows' a.id "aggregate_execution_time_ms").sum
  manual : ∀ a ∈ shapesOf rows, (∃ v ∈ valuesOf rows a.id "manually_critical", 0 < v) ↔
    ∃ v ∈ valuesOf rows' a.id "manually_critical", 0 < v

/-- The shapes that are marked `base_protected`. -/
def Material.protectedShapes {δ : Type} (material : Material δ) : List (ShapeId × String) :=
  (material.shapes.filter (·.baseProtected)).map (fun e => (e.queryShapeId, e.queryShapeHash))

/-- What is grouped of a shape, as the builder takes it. -/
def ShapeTotals.workload (d : ShapeTotals) : QueryShapeWorkload where
  shapeHash := d.shape.shapeHash
  operationCount := d.operationCount.getD 0
  executionTimeMs := d.execution.getD 0
  manuallyCritical := d.manual

section

variable {rows rows' : List MetricObservation} {a : QueryShape} {d : ShapeTotals}

theorem mem_shapesOf : a ∈ shapesOf rows ↔ ∃ o ∈ rows, o.queryShape = some a := by
  rw [shapesOf, List.mem_dedup, List.mem_filterMap]

theorem valuesOf_perm (h : rows.Perm rows') (id : ShapeId) (name : String) :
    (valuesOf rows id name).Perm (valuesOf rows' id name) :=
  ((h.filter _).filter _).map _

/-- Neither the order of the rows nor the windows that they are of matter. -/
theorem SameTotals.of_perm (h : rows.Perm rows') : SameTotals rows rows' where
  shapes a := by simp only [mem_shapesOf, h.mem_iff]
  counts a _ := (valuesOf_perm h a.id _).sum_eq
  times a _ := (valuesOf_perm h a.id _).sum_eq
  manual a _ := by simp only [(valuesOf_perm h a.id _).mem_iff]

theorem totalsOf_workload (rows : List MetricObservation) (a : QueryShape) :
    (totalsOf rows a).workload = workloadOf rows a := by
  obtain ⟨hcount, -⟩ := @operationCount_observeAll { shape := a } (ofShape rows a.id)
  have htime := @execution_observeAll { shape := a } (ofShape rows a.id)
  have hmanual := @manual_observeAll { shape := a } (ofShape rows a.id)
  have hshape := @shape_observeAll { shape := a } (ofShape rows a.id)
  simp only [totalsOf, ShapeTotals.workload, workloadOf, hshape, hcount, htime, valuesOf,
    QueryShapeWorkload.mk.injEq, true_and]
  refine ⟨by simp [List.map_map, Function.comp_def], by simp, ?_⟩
  rw [Bool.eq_iff_iff, hmanual]
  simp

theorem shapes_perm (hjoined : Joined rows) :
    ((rows.foldl groupObservation []).map (·.shape)).Perm (shapesOf rows) := by
  have hgrouped : Grouped (rows.foldl groupObservation []) := Grouped.foldl .nil
  rw [shapesOf, List.perm_ext_iff_of_nodup ?_ (List.nodup_dedup _), ← shapesOf]
  · intro a
    rw [mem_shapesOf, List.mem_map]
    constructor
    · rintro ⟨d, hd, rfl⟩
      rcases shape_mem_foldl hd with h | ⟨_, hnil, -⟩
      · exact h
      · cases hnil
    · rintro ⟨o, ho, ha⟩
      obtain ⟨d, hd, hid⟩ := exists_mem_foldl ho ha
      obtain ⟨o', ho', ha'⟩ | ⟨_, hnil, -⟩ := shape_mem_foldl hd
      · exact ⟨d, hd, hjoined o' ho' o ho _ ha' _ ha hid⟩
      · cases hnil
  · exact List.pairwise_map.mpr (hgrouped.imp (fun hne heq => hne (congrArg QueryShape.id heq)))

theorem workloads_perm (hjoined : Joined rows) :
    ((rows.foldl groupObservation []).map (·.workload)).Perm (aggregated rows) := by
  have heach : (rows.foldl groupObservation []).map (·.workload) =
      ((rows.foldl groupObservation []).map (·.shape)).map (workloadOf rows) := by
    rw [List.map_map]
    refine List.map_congr_left (fun d hd => ?_)
    rw [Function.comp_apply, ← totalsOf_workload, ← eq_totalsOf hd]
  rw [heach]
  exact (shapes_perm hjoined).map _

/-- The snapshot protects a shape just where the builder finds it critical, with or without times. -/
theorem baseProtected_eq {total : Int} {totalExecution : ℚ} (htotal : 0 < total)
    (hexecution : 0 ≤ totalExecution) (providers : List String) (pseudonymize : String → String) :
    (shapeEvidence providers pseudonymize total totalExecution d).baseProtected =
      isCritical d.workload total totalExecution := by
  have hne : (total : ℚ) ≠ 0 := by exact_mod_cast htotal.ne'
  have hshare : (if 0 < totalExecution then d.execution.map (· / totalExecution) else none).any
      (1 / 100 ≤ ·) = decide ((1 : ℚ) / 100 ≤ fraction (d.execution.getD 0) totalExecution) := by
    rcases hexecution.eq_or_lt with rfl | hpos
    · simp [fraction]
    · rw [if_pos hpos, fraction, if_pos hpos.ne']
      cases d.execution <;> simp
  simp only [shapeEvidence, isCritical, ShapeTotals.workload, Bool.false_or, fraction, if_pos hne]
  rw [hshare, fraction]
  rfl

theorem Counted.counts_eq (h : Counted rows) (ha : a ∈ shapesOf rows) :
    (((valuesOf rows a.id "operation_count").map truncate).sum : ℚ) =
      (valuesOf rows a.id "operation_count").sum := by
  have hcounts := h.counts a ha
  generalize valuesOf rows a.id "operation_count" = values at hcounts
  induction values with
  | nil => rfl
  | cons v values ih =>
    obtain ⟨n, rfl⟩ := hcounts v List.mem_cons_self
    have htruncate : truncate (n : ℚ) = n := by simp [truncate]
    rw [List.map_cons, List.sum_cons, List.sum_cons, htruncate, Int.cast_add,
      ih (fun v hv => hcounts v (List.mem_cons_of_mem _ hv)), Int.cast_natCast]

theorem Counted.time_nonneg (h : Counted rows) : 0 ≤ totalExecutionTime (aggregated rows) := by
  refine List.sum_nonneg (fun x hx => ?_)
  obtain ⟨w, hw, rfl⟩ := List.mem_map.mp hx
  obtain ⟨a, ha, rfl⟩ := List.mem_map.mp hw
  exact List.sum_nonneg (h.times a ha)

/-- Shapes with the same totals are the same to the builder. -/
theorem SameTotals.workloadOf_eq (h : SameTotals rows rows') (hrows : Counted rows)
    (hrows' : Counted rows') (ha : a ∈ shapesOf rows) : workloadOf rows a = workloadOf rows' a := by
  have hcount : ((valuesOf rows a.id "operation_count").map truncate).sum =
      ((valuesOf rows' a.id "operation_count").map truncate).sum := by
    have heq := (hrows.counts_eq ha).trans
      ((h.counts a ha).trans (hrows'.counts_eq ((h.shapes a).mp ha)).symm)
    exact_mod_cast heq
  have hmanual : (valuesOf rows a.id "manually_critical").any (0 < ·) =
      (valuesOf rows' a.id "manually_critical").any (0 < ·) := by
    rw [Bool.eq_iff_iff, List.any_eq_true, List.any_eq_true]
    simpa using h.manual a ha
  rw [workloadOf, workloadOf, hcount, h.times a ha, hmanual]

theorem SameTotals.shapes_perm (h : SameTotals rows rows') : (shapesOf rows).Perm (shapesOf rows') :=
  (List.perm_ext_iff_of_nodup (List.nodup_dedup _) (List.nodup_dedup _)).mpr h.shapes

theorem SameTotals.aggregated_perm (h : SameTotals rows rows') (hrows : Counted rows)
    (hrows' : Counted rows') : (aggregated rows).Perm (aggregated rows') := by
  have hsame : aggregated rows = (shapesOf rows).map (workloadOf rows') :=
    List.map_congr_left (fun a ha => h.workloadOf_eq hrows hrows' ha)
  rw [hsame]
  exact h.shapes_perm.map _

/-- The shapes that the builder finds critical. -/
def criticalShapes (rows : List MetricObservation) : List (ShapeId × String) :=
  ((shapesOf rows).filter (fun a => isCritical (workloadOf rows a)
    (totalOperations (aggregated rows)) (totalExecutionTime (aggregated rows)))).map
      (fun a => (a.id, a.shapeHash))

theorem criticalShapes_hashes {μ : Type} (measurements : List String) (globalMetrics : μ)
    (environment : EnvironmentFingerprint) : (criticalShapes rows).map Prod.snd =
      (build measurements (aggregated rows) globalMetrics environment).criticalQueryShapes := by
  simp only [criticalShapes, build, aggregated, List.filter_map, List.map_map]
  rfl

theorem SameTotals.criticalShapes_perm (h : SameTotals rows rows') (hrows : Counted rows)
    (hrows' : Counted rows') : (criticalShapes rows).Perm (criticalShapes rows') := by
  have hsame : (shapesOf rows).filter (fun a => isCritical (workloadOf rows a)
      (totalOperations (aggregated rows)) (totalExecutionTime (aggregated rows))) =
      (shapesOf rows).filter (fun a => isCritical (workloadOf rows' a)
        (totalOperations (aggregated rows')) (totalExecutionTime (aggregated rows'))) := by
    refine List.filter_congr (fun a ha => ?_)
    rw [h.workloadOf_eq hrows hrows' ha, totalOperations_perm (h.aggregated_perm hrows hrows'),
      totalExecutionTime_perm (h.aggregated_perm hrows hrows')]
  rw [criticalShapes, hsame]
  exact (h.shapes_perm.filter _).map _

/-- Every shape that was observed has a count. -/
theorem Counted.filter_eq (h : Counted rows) :
    (rows.foldl groupObservation []).filter (·.operationCount.isSome) =
      rows.foldl groupObservation [] := by
  refine List.filter_eq_self.mpr (fun d hd => ?_)
  have hshape : d.shape ∈ shapesOf rows :=
    (shapes_perm h.joined).mem_iff.mp (List.mem_map_of_mem hd)
  obtain ⟨v, hv⟩ := List.exists_mem_of_ne_nil _ (h.counted d.shape hshape)
  obtain ⟨o, ho, -⟩ := List.mem_map.mp hv
  obtain ⟨ho, hname⟩ := List.mem_filter.mp ho
  rw [eq_totalsOf hd]
  exact operationCount_observeAll.2.mpr (.inr ⟨o, ho, of_decide_eq_true hname⟩)

end

section

variable {δ : Type} {S : WorkloadSnapshotService δ} {s : Database δ} {r : RunId}
  {target : TargetId} {windows : List TelemetryWindow} {anchor : Instant} {material : Material δ}

/-- What is protected of the shapes that were grouped. -/
theorem protected_perm {rows : List MetricObservation} (hrows : Counted rows)
    (providers : List String) (pseudonymize : String → String) :
    ((((rows.foldl groupObservation []).insertionSort (·.shape.shapeHash ≤ ·.shape.shapeHash)).map
      (shapeEvidence providers pseudonymize (totalOperations (aggregated rows))
        (totalExecutionTime (aggregated rows)))).filter (·.baseProtected)).map
          (fun e => (e.queryShapeId, e.queryShapeHash)) |>.Perm (criticalShapes rows) := by
  have hcritical : (rows.foldl groupObservation []).filter ((·.baseProtected) ∘
      shapeEvidence providers pseudonymize (totalOperations (aggregated rows))
        (totalExecutionTime (aggregated rows))) =
      (rows.foldl groupObservation []).filter (fun d => isCritical (workloadOf rows d.shape)
        (totalOperations (aggregated rows)) (totalExecutionTime (aggregated rows))) := by
    refine List.filter_congr (fun d hd => ?_)
    rw [Function.comp_apply, baseProtected_eq hrows.positive hrows.time_nonneg, ← totalsOf_workload,
      ← eq_totalsOf hd]
  rw [List.filter_map, List.map_map]
  refine (((List.perm_insertionSort _ _).filter _).map _).trans ?_
  rw [criticalShapes, hcritical]
  refine List.Perm.trans (.of_eq ?_) (((shapes_perm hrows.joined).filter _).map _)
  rw [List.filter_map, List.map_map]
  rfl

/-- The snapshot of counted observations protects the shapes that the builder finds critical. -/
theorem buildMaterial_protected (hwindows : windows ≠ [])
    (htarget : ∀ w ∈ windows, w.targetId = target)
    (hrows : Counted (s.telemetry.observed windows)) :
    ∃ material, S.buildMaterial s windows target anchor r = .ok material ∧
      material.protectedShapes.Perm (criticalShapes (s.telemetry.observed windows)) := by
  have hworkloads := workloads_perm hrows.joined
  have htotal : (((s.telemetry.observed windows).foldl groupObservation []).map
      (·.operationCount.getD 0)).sum = totalOperations (aggregated (s.telemetry.observed windows)) := by
    rw [← totalOperations_perm hworkloads, totalOperations, List.map_map]
    rfl
  have htime : (((s.telemetry.observed windows).foldl groupObservation []).map
      (·.execution.getD 0)).sum = totalExecutionTime (aggregated (s.telemetry.observed windows)) := by
    rw [← totalExecutionTime_perm hworkloads, totalExecutionTime, List.map_map]
    rfl
  simp only [WorkloadSnapshotService.buildMaterial, hrows.filter_eq, htotal, htime,
    require_bind_eq_ok]
  refine ⟨_, ⟨?_, decide_eq_true hrows.positive, rfl⟩, protected_perm hrows _ _⟩
  exact decide_eq_true ⟨hwindows, List.all_eq_true.mpr (fun w hw => decide_eq_true (htarget w hw))⟩

/-- The durable snapshot and the builder protect the same shapes, whatever the order of the rows and
however they are split over windows. -/
theorem protection_agrees {μ : Type} (hwindows : windows ≠ [])
    (htarget : ∀ w ∈ windows, w.targetId = target)
    (hrows : Counted (s.telemetry.observed windows)) (measurements : List String)
    (globalMetrics : μ) (environment : EnvironmentFingerprint) :
    ∃ material, S.buildMaterial s windows target anchor r = .ok material ∧
      (∀ workloads, workloads.Perm (aggregated (s.telemetry.observed windows)) →
        (material.protectedShapes.map Prod.snd).Perm
          (build measurements workloads globalMetrics environment).criticalQueryShapes) ∧
      (∀ id hash, (id, hash) ∈ material.protectedShapes ↔
        ∃ a ∈ shapesOf (s.telemetry.observed windows), a.id = id ∧ a.shapeHash = hash ∧
          isCritical (workloadOf (s.telemetry.observed windows) a)
            (totalOperations (aggregated (s.telemetry.observed windows)))
            (totalExecutionTime (aggregated (s.telemetry.observed windows))) = true) ∧
      ∀ (s' : Database δ) (windows' : List TelemetryWindow) (anchor' : Instant) (r' : RunId),
        windows' ≠ [] → (∀ w ∈ windows', w.targetId = target) →
        Counted (s'.telemetry.observed windows') →
        SameTotals (s.telemetry.observed windows) (s'.telemetry.observed windows') →
        ∃ material', S.buildMaterial s' windows' target anchor' r' = .ok material' ∧
          material.protectedShapes.Perm material'.protectedShapes := by
  obtain ⟨material, hmaterial, hperm⟩ := buildMaterial_protected (S := S) (r := r)
    hwindows htarget hrows
  refine ⟨material, hmaterial, fun workloads hworkloads => ?_, fun id hash => ?_, ?_⟩
  · have hhashes := hperm.map Prod.snd
    rw [criticalShapes_hashes measurements globalMetrics environment] at hhashes
    exact hhashes.trans (build_perm hworkloads.symm measurements globalMetrics environment)
  · rw [hperm.mem_iff, criticalShapes, List.mem_map]
    simp only [List.mem_filter, Prod.mk.injEq]
    tauto
  · intro s' windows' anchor' r' hwindows' htarget' hrows' hsame
    obtain ⟨material', hmaterial', hperm'⟩ := buildMaterial_protected (S := S) (r := r')
      hwindows' htarget' hrows'
    exact ⟨material', hmaterial',
      (hperm.trans (hsame.criticalShapes_perm hrows hrows')).trans hperm'.symm⟩

end

section

/-- A shape that takes half a percent of the operations, and most of the time. -/
def reports : QueryShape := ⟨2, "shape-2", "aggregate", "orders"⟩

def busy : Telemetry where
  windows := [⟨1, 7, 0, 5000000, "QUERY_STATS", "COMPLETED"⟩]
  observations := [⟨1, 1, some orders, "operation_count", 199⟩,
    ⟨2, 1, some reports, "operation_count", 1⟩,
    ⟨3, 1, some reports, "aggregate_execution_time_ms", 900⟩]
  windows_nodup := oneWindow.windows_nodup

/-- The same, over two windows. -/
def busySplit : Telemetry where
  windows := [⟨1, 7, 0, 5000000, "QUERY_STATS", "COMPLETED"⟩,
    ⟨2, 7, 5000000, 6000000, "QUERY_STATS", "COMPLETED"⟩]
  observations := [⟨3, 1, some reports, "aggregate_execution_time_ms", 500⟩,
    ⟨2, 2, some reports, "operation_count", 1⟩, ⟨1, 1, some orders, "operation_count", 99⟩,
    ⟨4, 2, some reports, "aggregate_execution_time_ms", 400⟩,
    ⟨5, 2, some orders, "operation_count", 100⟩]

theorem counted_of_natural {rows : List MetricObservation}
    (hjoined : ∀ a ∈ shapesOf rows, ∀ b ∈ shapesOf rows, a.id = b.id → a = b)
    (hcounted : ∀ a ∈ shapesOf rows, valuesOf rows a.id "operation_count" ≠ [])
    (hnatural : ∀ o ∈ rows, 0 ≤ o.metricValue ∧ o.metricValue.den = 1)
    (hpositive : 0 < totalOperations (aggregated rows)) : Counted rows := by
  have hvalues : ∀ a name, ∀ v ∈ valuesOf rows a name, 0 ≤ v ∧ v.den = 1 := by
    intro a name v hv
    obtain ⟨o, ho, rfl⟩ := List.mem_map.mp hv
    exact hnatural o (List.mem_of_mem_filter (List.mem_of_mem_filter ho))
  refine ⟨fun o ho o' ho' a ha a' ha' => hjoined a (mem_shapesOf.mpr ⟨o, ho, ha⟩) a'
    (mem_shapesOf.mpr ⟨o', ho', ha'⟩), hcounted, fun a _ v hv => ?_, fun a _ v hv => (hvalues _ _ v hv).1,
    hpositive⟩
  obtain ⟨hnonneg, hden⟩ := hvalues _ _ v hv
  refine ⟨v.num.toNat, ?_⟩
  have hnum : ((v.num.toNat : ℤ) : ℚ) = v.num := by
    rw [Int.toNat_of_nonneg (Rat.num_nonneg.mpr hnonneg)]
  rw [← Int.cast_natCast, hnum, Rat.den_eq_one_iff v |>.mp hden]

theorem busy_counted : Counted busy.observations :=
  counted_of_natural (by decide +kernel) (by decide +kernel) (by decide +kernel) (by decide +kernel)

theorem busySplit_counted : Counted busySplit.observations :=
  counted_of_natural (by decide +kernel) (by decide +kernel) (by decide +kernel) (by decide +kernel)

theorem busy_sameTotals : SameTotals busy.observations busySplit.observations where
  shapes a := by
    have hperm : (shapesOf busy.observations).Perm (shapesOf busySplit.observations) := by
      decide +kernel
    exact hperm.mem_iff
  counts := by decide +kernel
  times := by decide +kernel
  manual := by decide +kernel

theorem protection_agrees_busy : ∃ material material' : Material Json,
    document.buildMaterial { telemetry := busy } busy.windows 7 5000000 1 = .ok material ∧
      document.buildMaterial { telemetry := busySplit } busySplit.windows 7 6000000 2 =
        .ok material' ∧
      (material.protectedShapes.map Prod.snd).Perm
        (build [] (aggregated busy.observations) () ⟨[]⟩).criticalQueryShapes ∧
      material.protectedShapes.Perm material'.protectedShapes := by
  have hbusy : (busy.observed busy.windows) = busy.observations := by decide +kernel
  have hsplit : (busySplit.observed busySplit.windows) = busySplit.observations := by
    decide +kernel
  obtain ⟨material, hmaterial, hbuilder, -, hsplits⟩ :=
    @protection_agrees Json document { telemetry := busy } 1 7 busy.windows 5000000 Unit
      (by decide) (by decide) (hbusy ▸ busy_counted) [] () ⟨[]⟩
  obtain ⟨material', hmaterial', hperm⟩ := hsplits { telemetry := busySplit } busySplit.windows 6000000 2
    (by decide) (by decide) (hsplit ▸ busySplit_counted) (by rw [hbusy, hsplit]; exact busy_sameTotals)
  refine ⟨material, material', hmaterial, hmaterial', ?_, hperm⟩
  rw [← hbusy]
  exact hbuilder _ (.refl _)

end

end NoSQLOptimizer.Workloads
